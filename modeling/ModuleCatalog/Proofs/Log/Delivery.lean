import Mathlib
import ModuleCatalog.Log.Setup
import ModuleCatalog.Proofs.FileSystem.Growth
import ModuleCatalog.Proofs.Log.Lineage

/-!
# Where records go

After a call has set the log up, each record of a logger below the root goes once to the console and, if the call has
opened a log file, once behind the content of this file. It goes nowhere else, and nothing that has been written is
lost afterwards.
-/

namespace ModuleCatalog.Log

theorem Level.rank_wanted_pos (verbose quiet : Bool) : 0 < (Level.wanted verbose quiet).rank := by
  cases verbose <;> cases quiet <;> decide

/-- Whether an event is a call. -/
def Event.isCall : Event → Bool
  | .call _ => true
  | .ask _ | .entry _ => false

def Event.entry? : Event → Option Entry
  | .entry e => some e
  | .call _ | .ask _ => none

namespace Entry

/-- The bytes of the line of a record in a file, if it has any: a surrogate has none. -/
def bytes? (e : Entry) : Option Bytes := (Utf8.encode (e.record.fileLine e.stamp)).toOption

/-- What the console shows of a record: its line, and a report if its line cannot be written to the log file. -/
def shown (e : Entry) (level : Level) (hasFile : Bool) : Text :=
  if e.record.level.reaches level then
    e.record.consoleLine ++ if hasFile && e.bytes?.isNone then e.report else []
  else []

/-- What is written of a record to the log file. -/
def written (e : Entry) (level : Level) : Bytes :=
  if e.record.level.reaches level then e.bytes?.getD [] else []

end Entry

namespace Session

variable {s after : Session} {e : Entry}

/-! ## What has been written stays -/

/-- Whether what has been written in one state of the log is still there in another one. -/
structure Grows (s after : Session) : Prop where
  console : s.console <+: after.console
  files : FileSystem.Grows s.files after.files

theorem Grows.refl (s : Session) : Grows s s := ⟨List.prefix_rfl, .refl _⟩

theorem Grows.trans {a b c : Session} (hab : Grows a b) (hbc : Grows b c) : Grows a c :=
  ⟨hab.console.trans hbc.console, hab.files.trans hbc.files⟩

theorem grows_console (s : Session) (line : Text) : Grows s { s with console := s.console ++ line } :=
  ⟨List.prefix_append _ _, .refl _⟩

/-- Whether the log differs in what has been written, and not in its loggers. -/
structure AddsLines (s after : Session) : Prop where
  names : after.names = s.names
  package : after.package = s.package
  grows : Grows s after

theorem AddsLines.refl (s : Session) : AddsLines s s := ⟨rfl, rfl, .refl s⟩

theorem AddsLines.trans {a b c : Session} (hab : AddsLines a b) (hbc : AddsLines b c) : AddsLines a c :=
  ⟨hbc.names.trans hab.names, hbc.package.trans hab.package, hab.grows.trans hbc.grows⟩

theorem grows_writeLine {fs files : FileSystem} {path : Path} {line : Text}
    (h : writeLine fs path line = some files) : FileSystem.Grows fs files := by
  unfold writeLine at h
  split at h
  · cases h
  · obtain ⟨location, -, hwrites⟩ := FileSystem.append_eq_ok (toOption_eq_some_iff.1 h)
    exact hwrites.grows

theorem addsLines_put (s : Session) (e : Entry) (sink : Sink) : AddsLines s (s.put e sink) := by
  cases sink with
  | console => exact ⟨rfl, rfl, grows_console s _⟩
  | file path =>
    rw [put]
    split
    · next files hfiles => exact ⟨rfl, rfl, List.prefix_rfl, grows_writeLine hfiles⟩
    · exact ⟨rfl, rfl, grows_console s _⟩

theorem addsLines_handle (s : Session) (e : Entry) (handler : Handler) : AddsLines s (s.handle e handler) := by
  rw [handle]
  split
  · exact addsLines_put s e handler.sink
  · exact .refl s

theorem addsLines_foldl_handle (handlers : List Handler) (s : Session) (e : Entry) :
    AddsLines s (handlers.foldl (fun s handler => s.handle e handler) s) := by
  induction handlers generalizing s with
  | nil => exact .refl s
  | cons handler handlers ih => exact (addsLines_handle s e handler).trans (ih _)

theorem addsLines_write (s : Session) (e : Entry) : AddsLines (s.ask e.record.logger) (s.write e) := by
  unfold write
  dsimp only
  split
  · split
    · split
      · exact ⟨rfl, rfl, grows_console _ _⟩
      · exact .refl _
    · exact addsLines_foldl_handle _ _ e
  · exact .refl _

/-! ## Log files -/

/-- A log file that cannot be opened leaves no more than directories. -/
theorem openLog_eq_error {fs files : FileSystem} {path : Path} {refusal : Option (FileSystem.Fault × Nat)}
    {error : FileSystem.Error} (h : openLog fs path refusal = (files, .error error)) :
    FileSystem.AddsParents fs files path.parent := by
  have hmade : ∀ count, FileSystem.AddsParents fs (fs.ensureDirectories (path.parent.upTo count)).1 path.parent :=
    FileSystem.addsParents_ensureDirectories fs path.parent
  have hall := hmade path.parent.parts.length
  rw [FileSystem.upTo_length] at hall
  unfold openLog at h
  split at h
  · next fault progress =>
    obtain ⟨rfl, -⟩ := Prod.mk.inj h
    exact hmade progress
  · split at h
    · next made _ hensure =>
      obtain ⟨rfl, -⟩ := Prod.mk.inj h
      rwa [hensure] at hall
    · next made hensure =>
      dsimp only at h
      split at h
      · cases (Prod.mk.inj h).2
      · obtain ⟨rfl, -⟩ := Prod.mk.inj h
        rwa [hensure] at hall

/-- A log file is opened where its absolute path leads. -/
theorem openLog_eq_ok {fs files : FileSystem} {path opened : Path} {refusal : Option (FileSystem.Fault × Nat)}
    (h : openLog fs path refusal = (files, .ok opened)) : opened = fs.absolute path ∧ ∃ made location,
      FileSystem.AddsParents fs made path.parent ∧ FileSystem.Opens made location files ∧
        files.IsOpen opened location := by
  unfold openLog at h
  split at h
  · cases (Prod.mk.inj h).2
  · split at h
    · cases (Prod.mk.inj h).2
    · next made hensure =>
      dsimp only at h
      split at h
      · next hopen =>
        obtain ⟨rfl, hpath⟩ := Prod.mk.inj h
        obtain rfl := Except.ok.inj hpath
        have hadds := FileSystem.addsParents_ensureDirectories fs path.parent path.parent.parts.length
        rw [FileSystem.upTo_length, hensure] at hadds
        obtain ⟨location, hopens, hisOpen⟩ := FileSystem.openFile_eq_ok hopen
        have habsolute : made.absolute path = fs.absolute path := by
          rw [FileSystem.absolute, FileSystem.absolute, FileSystem.workingPath, FileSystem.workingPath, hadds.working]
        exact ⟨habsolute, made, location, hadds, hopens, hisOpen⟩
      · cases (Prod.mk.inj h).2

/-- What is seen of an opened log file: it has stood there before, or it is new and empty. -/
theorem look_location_of_opens {fs made files : FileSystem} {path opened : Path} {location : List Text}
    (hadds : FileSystem.AddsParents fs made path) (hopens : FileSystem.Opens made location files)
    (hisOpen : files.IsOpen opened location) : files.top.look location = fs.top.look location ∨
      (fs.top.look location = none ∧ files.top.look location = some (.file [] 0o644)) := by
  obtain ⟨leaf, hleaf, hlook⟩ := hisOpen.leaf
  rcases hopens.file with hsame | ⟨hnone, hnew⟩
  · rcases hadds.look location with hkept | ⟨-, hadded, -⟩
    · exact .inl (hsame.trans hkept)
    · -- A directory that has just been added is not open.
      rw [hlook, hadded] at hsame
      cases Option.some.inj hsame ▸ hleaf
  · rcases hadds.look location with hkept | ⟨-, hadded, -⟩
    · exact .inr ⟨hkept.symm.trans hnone, hnew⟩
    · cases hnone.symm.trans hadded

/-! ## Calls -/

/-- Whether the log is set up with a level and perhaps a log file, which is open at a location. -/
structure IsSetUp (s : Session) (level : Level) (log : Option (Path × List Text)) : Prop where
  root : root ∈ s.names
  package : s.package =
    ⟨level, false, ⟨level, .console⟩ :: (log.map fun file => ⟨level, .file file.1⟩).toList⟩
  isOpen : ∀ path location, log = some (path, location) → s.files.IsOpen path location

/-- What a call does: it writes nothing. It may add directories, and it opens a log file where the absolute path
leads if it succeeds with one; this may be a new one. -/
structure SetsUp (s : Session) (c : Call) (log : Option (List Text))
    (result : Session × Except FileSystem.Error Logger) : Prop where
  console : result.1.console = s.console
  working : result.1.files.working = s.files.working
  log_isSome : log.isSome ↔ c.file.isSome ∧ ∃ logger, result.2 = .ok logger
  leads : ∀ path location, c.file = some path → log = some location →
    result.1.files.LeadsTo .target (s.files.absolute path).toText location
  look : ∀ location, result.1.files.top.look location = s.files.top.look location ∨
    (s.files.top.look location = none ∧ (result.1.files.top.look location = some (.directory []) ∨
      (log = some location ∧ result.1.files.top.look location = some (.file [] 0o644))))

/-- After a call the log is set up. -/
theorem exists_setsUp (s : Session) (c : Call) :
    ∃ log, SetsUp s c (log.map Prod.snd) (s.configure c) ∧ IsSetUp (s.configure c).1 c.level log := by
  have hroot : root ∈ (s.ask root).names := List.mem_insert_self
  cases hfile : c.file with
  | none =>
    have hconfigure : s.configure c = ({ s.ask root with package := ⟨c.level, false, [⟨c.level, .console⟩]⟩ },
        .ok ⟨c.level, false, [⟨c.level, .console⟩]⟩) := by
      simp only [configure, hfile]
    rw [hconfigure]
    exact ⟨none, ⟨rfl, rfl, by simp [hfile], nofun, fun location => .inl rfl⟩, ⟨hroot, rfl, nofun⟩⟩
  | some path =>
    cases hopen : openLog s.files path c.refusal with
    | mk files result =>
      cases result with
      | error cause =>
        have hconfigure : s.configure c =
            ({ s.ask root with files, package := ⟨c.level, false, [⟨c.level, .console⟩]⟩ }, .error cause) := by
          simp only [configure, hfile, ask, hopen]
        have hadds := openLog_eq_error hopen
        rw [hconfigure]
        refine ⟨none, ⟨rfl, hadds.working, by simp, nofun, fun location => ?_⟩, ⟨hroot, rfl, nofun⟩⟩
        exact (hadds.look location).imp_right fun hadded => ⟨hadded.1, .inl hadded.2.1⟩
      | ok opened =>
        have hconfigure : s.configure c = ({ s.ask root with
            files, package := ⟨c.level, false, [⟨c.level, .console⟩, ⟨c.level, .file opened⟩]⟩ },
            .ok ⟨c.level, false, [⟨c.level, .console⟩, ⟨c.level, .file opened⟩]⟩) := by
          simp only [configure, hfile, ask, hopen, List.singleton_append]
        obtain ⟨hpath, made, location, hadds, hopens, hisOpen⟩ := openLog_eq_ok hopen
        have hworking : files.working = s.files.working := hopens.working.trans hadds.working
        rw [hconfigure]
        refine ⟨some (opened, location), ⟨rfl, hworking, by simp [hfile], ?_, fun other => ?_⟩, ⟨hroot, rfl, ?_⟩⟩
        · intro path' location' hpath' hlocation
          obtain rfl := Option.some.inj (hfile.symm.trans hpath')
          obtain rfl := Option.some.inj hlocation
          exact hpath ▸ hisOpen.leads
        · by_cases hother : other = location
          · subst hother
            exact (look_location_of_opens hadds hopens hisOpen).imp_right fun hnew => ⟨hnew.1, .inr ⟨rfl, hnew.2⟩⟩
          · rw [hopens.others other hother]
            exact (hadds.look other).imp_right fun hadded => ⟨hadded.1, .inl hadded.2.1⟩
        · rintro _ _ ⟨rfl, rfl⟩
          exact hisOpen

/-- A call succeeds if its log file can be opened. -/
theorem exists_configure_eq_ok {s : Session} {c : Call} {path opened : Path} (hfile : c.file = some path)
    (hopen : (openLog s.files path c.refusal).2 = .ok opened) : ∃ logger, (s.configure c).2 = .ok logger := by
  have hpair : openLog s.files path c.refusal = ((openLog s.files path c.refusal).1, .ok opened) := Prod.ext rfl hopen
  simp only [configure, hfile, ask]
  rw [hpair]
  exact ⟨_, rfl⟩

/-! ## Events -/

theorem grows_ask (s : Session) (name : Text) : Grows s (s.ask name) := ⟨List.prefix_rfl, .refl _⟩

theorem grows_configure (s : Session) (c : Call) : Grows s (s.configure c).1 := by
  obtain ⟨log, hsets, -⟩ := exists_setsUp s c
  refine ⟨hsets.console ▸ List.prefix_rfl, hsets.working, fun location => ?_⟩
  rcases hsets.look location with hsame | ⟨hnone, hdirectory | ⟨-, hnew⟩⟩
  · exact .of_eq hsame
  · exact .added hnone fun target htarget => nomatch hdirectory.symm.trans htarget
  · exact .added hnone fun target htarget => nomatch hnew.symm.trans htarget

/-- Whatever happens, what has been written stays. -/
theorem grows_take (s : Session) (event : Event) : Grows s (s.take event) := by
  cases event with
  | call c => exact grows_configure s c
  | ask name => exact grows_ask s (loggerName name)
  | entry e => exact (grows_ask s e.record.logger).trans (addsLines_write s e).grows

theorem grows_run (s : Session) (events : List Event) : Grows s (s.run events) := by
  induction events generalizing s with
  | nil => exact .refl s
  | cons event events ih => exact (grows_take s event).trans (ih (s.take event))

section SetUp

variable {level : Level} {log : Option (Path × List Text)}

theorem IsSetUp.ask (h : IsSetUp s level log) (name : Text) : IsSetUp (s.ask name) level log :=
  ⟨List.mem_insert_of_mem h.root, h.package, h.isOpen⟩

theorem IsSetUp.of_addsLines (h : IsSetUp s level log) (hadds : AddsLines s after) : IsSetUp after level log where
  root := hadds.names ▸ h.root
  package := hadds.package.trans h.package
  isOpen path location hlog := (h.isOpen path location hlog).of_grows hadds.grows.files

/-- Only a call changes how the log is set up. -/
theorem IsSetUp.take (h : IsSetUp s level log) {event : Event} (hevent : event.isCall = false) :
    IsSetUp (s.take event) level log := by
  cases event with
  | call c => cases hevent
  | ask name => exact h.ask (loggerName name)
  | entry e => exact (h.ask e.record.logger).of_addsLines (addsLines_write s e)

theorem IsSetUp.run {events : List Event} (h : IsSetUp s level log)
    (hevents : ∀ event ∈ events, event.isCall = false) : IsSetUp (s.run events) level log := by
  induction events generalizing s with
  | nil => exact h
  | cons event events ih =>
    rw [List.forall_mem_cons] at hevents
    exact ih (h.take hevents.1) hevents.2

end SetUp

/-! ## Loggers -/

theorem logger_root (s : Session) : s.logger root = s.package := if_pos rfl

theorem logger_of_ne {s : Session} {name : Text} (h : name ≠ root) : s.logger name = .fresh := if_neg h

/-- The level that is set above a logger is that of the package. -/
theorem threshold_eq {s : Session} {lineage : List Text} (hroot : root ∈ lineage)
    (hlevel : s.package.level ≠ .unset) : s.threshold lineage = s.package.level := by
  unfold threshold
  induction lineage with
  | nil => cases hroot
  | cons name above ih =>
    rw [List.map_cons, List.find?_cons]
    by_cases hname : name = root
    · rw [hname, logger_root, decide_eq_true hlevel]
      rfl
    · rw [logger_of_ne hname]
      exact ih ((List.mem_cons.1 hroot).resolve_left (Ne.symm hname))

/-- The handlers above a logger are those of the package. -/
theorem handlersFrom_eq {s : Session} {lineage : List Text} (hroot : root ∈ lineage)
    (hpropagates : s.package.propagates = false) : s.handlersFrom lineage = s.package.handlers := by
  induction lineage with
  | nil => cases hroot
  | cons name above ih =>
    rw [handlersFrom]
    by_cases hname : name = root
    · rw [hname, logger_root, hpropagates]
      exact List.append_nil _
    · rw [logger_of_ne hname]
      exact ih ((List.mem_cons.1 hroot).resolve_left (Ne.symm hname))

theorem threshold_of_not_mem {s : Session} {lineage : List Text} (hroot : root ∉ lineage) :
    s.threshold lineage = .warning := by
  unfold threshold
  induction lineage with
  | nil => rfl
  | cons name above ih =>
    rw [List.mem_cons, not_or] at hroot
    rw [List.map_cons, List.find?_cons, logger_of_ne (Ne.symm hroot.1)]
    exact ih hroot.2

theorem handlersFrom_of_not_mem {s : Session} {lineage : List Text} (hroot : root ∉ lineage) :
    s.handlersFrom lineage = [] := by
  induction lineage with
  | nil => rfl
  | cons name above ih =>
    rw [List.mem_cons, not_or] at hroot
    rw [handlersFrom, logger_of_ne (Ne.symm hroot.1)]
    exact ih hroot.2

/-! ## Records -/

/-- A record that the root is not above is written to the console without its level, if it is a warning or worse,
however the log is set up. -/
theorem write_of_not_mem (h : root ∉ lineage (s.ask e.record.logger).names e.record.logger) :
    s.write e = if e.record.level.reaches .warning then
      { s.ask e.record.logger with console := s.console ++ e.record.plainLine } else s.ask e.record.logger := by
  unfold write
  dsimp only
  rw [threshold_of_not_mem h, handlersFrom_of_not_mem h]
  by_cases hreaches : e.record.level.reaches .warning
  · have hpositive : 0 < e.record.level.rank := Int.lt_of_lt_of_le (by decide) (Level.reaches_iff.1 hreaches)
    rw [if_pos ⟨hpositive, hreaches⟩]
    rfl
  · rw [if_neg fun hboth => hreaches hboth.2, if_neg hreaches]

theorem files_put_of_bytes? {s : Session} (h : e.bytes? = none) (sink : Sink) : (s.put e sink).files = s.files := by
  cases sink with
  | console => rfl
  | file path =>
    unfold put writeLine
    unfold Entry.bytes? at h
    cases hencode : Utf8.encode (e.record.fileLine e.stamp) with
    | error cause => rfl
    | ok bytes =>
      rw [hencode] at h
      cases h

theorem files_foldl_handle_of_bytes? {s : Session} (h : e.bytes? = none) (handlers : List Handler) :
    (handlers.foldl (fun s handler => s.handle e handler) s).files = s.files := by
  induction handlers generalizing s with
  | nil => rfl
  | cons handler handlers ih =>
    rw [List.foldl_cons, ih, handle]
    split
    · exact files_put_of_bytes? h handler.sink
    · rfl

/-- A record whose line has no bytes is written to no file. -/
theorem files_write_of_bytes? (h : e.bytes? = none) : (s.write e).files = s.files := by
  unfold write
  dsimp only
  split
  · split
    · split <;> rfl
    · exact files_foldl_handle_of_bytes? h _
  · rfl

section Records

variable {level : Level} {log : Option (Path × List Text)}

theorem handle_of_reaches {s : Session} {handler : Handler} (h : e.record.level.reaches handler.level) :
    s.handle e handler = s.put e handler.sink := if_pos h

/-- A record below the root goes to the console and to the log file, if its level suffices. -/
theorem IsSetUp.write_eq (h : IsSetUp s level log) (hlevel : 0 < level.rank) (hname : IsNested e.record.logger) :
    s.write e = if e.record.level.reaches level then
      (log.map fun file => Sink.file file.1).toList.foldl (fun s sink => s.put e sink)
        ((s.ask e.record.logger).put e .console)
    else s.ask e.record.logger := by
  have hask := h.ask e.record.logger
  have hroot := root_mem_lineage hask.root hname
  have hunset : (s.ask e.record.logger).package.level ≠ .unset := by
    rw [hask.package]
    rintro rfl
    exact absurd hlevel (by decide)
  have hthreshold := threshold_eq hroot hunset
  have hhandlers := handlersFrom_eq hroot (by rw [hask.package])
  rw [hask.package] at hthreshold hhandlers
  unfold write
  dsimp only
  rw [hthreshold, hhandlers]
  by_cases hreaches : e.record.level.reaches level
  · have hpositive : 0 < e.record.level.rank := Int.lt_of_lt_of_le hlevel (Level.reaches_iff.1 hreaches)
    rw [if_pos ⟨hpositive, hreaches⟩, if_pos hreaches]
    cases log with
    | none => exact handle_of_reaches hreaches
    | some file =>
      calc ((s.ask e.record.logger).handle e ⟨level, .console⟩).handle e ⟨level, .file file.1⟩
          = ((s.ask e.record.logger).put e .console).handle e ⟨level, .file file.1⟩ :=
            congrArg (fun s => handle s e ⟨level, .file file.1⟩) (handle_of_reaches hreaches)
        _ = ((s.ask e.record.logger).put e .console).put e (.file file.1) := handle_of_reaches hreaches
  · rw [if_neg fun hboth => hreaches hboth.2, if_neg hreaches]

/-- The line of a record goes behind the content of an open file. If it has no bytes, a report goes to the console
instead. -/
theorem put_file {path : Path} {location : List Text} (h : s.files.IsOpen path location) (e : Entry) :
    (s.put e (.file path)).console = s.console ++ (if e.bytes?.isNone then e.report else []) ∧
      FileSystem.Writes s.files location (e.bytes?.getD []) (s.put e (.file path)).files := by
  unfold put writeLine Entry.bytes?
  cases hencode : Utf8.encode (e.record.fileLine e.stamp) with
  | error cause =>
    obtain ⟨leaf, -, hlook⟩ := h.leaf
    exact ⟨rfl, FileSystem.writes_self hlook leaf.extended_nil⟩
  | ok bytes =>
    obtain ⟨files, happend, hwrites⟩ := h.append bytes
    dsimp only
    rw [happend]
    exact ⟨(List.append_nil _).symm, hwrites⟩

/-- What becomes of the log as a text is shown and bytes are written behind the content of the log file, if there is
one. Nothing is written elsewhere. -/
structure Delivers (shown : Text) (written : Bytes) (log : Option (List Text)) (s after : Session) : Prop where
  console : after.console = s.console ++ shown
  file : ∀ location, log = some location → ∃ leaf : Node, leaf.isLeaf ∧ s.files.top.look location = some leaf ∧
    after.files.top.look location = some (leaf.extended written)
  others : ∀ location, log ≠ some location → after.files.top.look location = s.files.top.look location

theorem IsSetUp.exists_leaf (h : IsSetUp s level log) {location : List Text} (hlog : log.map Prod.snd = some location) :
    ∃ leaf : Node, leaf.isLeaf ∧ s.files.top.look location = some leaf := by
  obtain ⟨file, rfl, rfl⟩ := Option.map_eq_some_iff.1 hlog
  exact (h.isOpen file.1 file.2 rfl).leaf

/-- Nothing is delivered while the log stays as it is. -/
theorem IsSetUp.delivers_nil (h : IsSetUp s level log) (hconsole : after.console = s.console)
    (hfiles : after.files = s.files) : Delivers [] [] (log.map Prod.snd) s after where
  console := hconsole.trans (List.append_nil _).symm
  file := by
    intro location hlocation
    obtain ⟨leaf, hleaf, hlook⟩ := h.exists_leaf hlocation
    exact ⟨leaf, hleaf, hlook, by rw [hfiles, hlook, Node.extended_nil]⟩
  others _ _ := by rw [hfiles]

theorem Delivers.append {a b c : Session} {shown shown' : Text} {written written' : Bytes} {log : Option (List Text)}
    (hab : Delivers shown written log a b) (hbc : Delivers shown' written' log b c) :
    Delivers (shown ++ shown') (written ++ written') log a c where
  console := by rw [hbc.console, hab.console, List.append_assoc]
  file := by
    intro location hlog
    obtain ⟨leaf, hleaf, ha, hb⟩ := hab.file location hlog
    obtain ⟨leaf', -, hb', hc⟩ := hbc.file location hlog
    obtain rfl := Option.some.inj (hb.symm.trans hb')
    exact ⟨leaf, hleaf, ha, by rw [hc, Node.extended_extended]⟩
  others location hlog := (hbc.others location hlog).trans (hab.others location hlog)

/-- A record of a logger below the root is delivered once the log is set up. -/
theorem IsSetUp.delivers (h : IsSetUp s level log) (hlevel : 0 < level.rank) (hname : IsNested e.record.logger) :
    Delivers (e.shown level log.isSome) (e.written level) (log.map Prod.snd) s (s.write e) := by
  rw [h.write_eq hlevel hname, Entry.shown, Entry.written]
  by_cases hreaches : e.record.level.reaches level
  · rw [if_pos hreaches, if_pos hreaches, if_pos hreaches]
    cases log with
    | none =>
      refine ⟨?_, nofun, fun _ _ => rfl⟩
      exact congrArg (s.console ++ ·) (List.append_nil _).symm
    | some file =>
      have hisOpen : ((s.ask e.record.logger).put e .console).files.IsOpen file.1 file.2 := h.isOpen file.1 file.2 rfl
      obtain ⟨hconsole, hwrites⟩ := put_file hisOpen e
      refine ⟨?_, fun location hlocation => ?_, fun other hother => ?_⟩
      · calc (((s.ask e.record.logger).put e .console).put e (.file file.1)).console
            = s.console ++ e.record.consoleLine ++ (if e.bytes?.isNone then e.report else []) := hconsole
          _ = s.console ++ (e.record.consoleLine ++ if true && e.bytes?.isNone then e.report else []) :=
            List.append_assoc ..
      · obtain ⟨leaf, hleaf, hlook⟩ := h.exists_leaf hlocation
        obtain rfl := Option.some.inj hlocation
        exact ⟨leaf, hleaf, hlook, hwrites.extended.trans (congrArg (Option.map _) hlook)⟩
      · exact hwrites.others other fun heq => hother (congrArg some heq.symm)
  · rw [if_neg hreaches, if_neg hreaches, if_neg hreaches]
    exact h.delivers_nil rfl rfl

end Records

/-! ## Runs -/

theorem run_append (s : Session) (before after : List Event) :
    s.run (before ++ after) = (s.run before).run after := List.foldl_append

/-- Until the next call the console shows the records of loggers below the root one after another, and so does the
log file. -/
theorem IsSetUp.delivers_run {level : Level} {log : Option (Path × List Text)} {events : List Event}
    (h : IsSetUp s level log) (hlevel : 0 < level.rank) (hevents : ∀ event ∈ events, event.isCall = false)
    (hnested : ∀ e ∈ events.filterMap Event.entry?, IsNested e.record.logger) :
    Delivers ((events.filterMap Event.entry?).flatMap fun e => e.shown level log.isSome)
      ((events.filterMap Event.entry?).flatMap fun e => e.written level) (log.map Prod.snd) s (s.run events) := by
  induction events generalizing s with
  | nil => exact h.delivers_nil rfl rfl
  | cons event events ih =>
    rw [List.forall_mem_cons] at hevents
    have hrest := ih (h.take hevents.1) hevents.2
    cases event with
    | call c => cases hevents.1
    | ask name =>
      have hask : Delivers [] [] (log.map Prod.snd) s (s.ask (loggerName name)) := h.delivers_nil rfl rfl
      exact hask.append (hrest hnested)
    | entry e =>
      have hentries : (Event.entry e :: events).filterMap Event.entry? = e :: events.filterMap Event.entry? := rfl
      rw [hentries, List.forall_mem_cons] at hnested
      rw [hentries, List.flatMap_cons, List.flatMap_cons]
      exact (h.delivers hlevel hnested.1).append (hrest hnested.2)

/-- Whatever has happened before, the last call decides where a record of a logger below the root goes: to the console
and to the log file of this call, once each, if its level suffices. A call that fails leaves the console alone with
its level. No call and no later record takes away what has been written. -/
theorem delivers_after_call (s : Session) (before between rest : List Event) (c : Call) (e : Entry)
    (name : Option Text) (hbetween : ∀ event ∈ between, event.isCall = false)
    (hlogger : e.record.logger = loggerName name) (hname : (name.getD []).head? ≠ some (.scalar '.')) :
    ∃ log, SetsUp (s.run before) c log ((s.run before).configure c) ∧
      Delivers (e.shown c.level log.isSome) (e.written c.level) log
        (s.run (before ++ .call c :: between)) (s.run (before ++ .call c :: between ++ [.entry e])) ∧
      Grows (s.run (before ++ .call c :: between ++ [.entry e]))
        (s.run (before ++ .call c :: between ++ .entry e :: rest)) := by
  obtain ⟨log, hsets, hsetUp⟩ := exists_setsUp (s.run before) c
  have hbefore : IsSetUp (s.run (before ++ .call c :: between)) c.level log := by
    rw [run_append]
    exact hsetUp.run hbetween
  refine ⟨log.map Prod.snd, hsets, ?_, ?_⟩
  · rw [run_append _ (before ++ .call c :: between), Option.isSome_map]
    exact hbefore.delivers (Level.rank_wanted_pos c.verbose c.quiet) (hlogger ▸ isNested_loggerName hname)
  · rw [List.append_cons _ (Event.entry e) rest, run_append _ _ rest]
    exact grows_run _ rest

/-- A log of which nothing has been asked yet, in an empty directory. -/
def untouched : Session := ⟨⟨.directory [], [], ⟨none, []⟩⟩, [], [], .fresh⟩

/-- A call with a log file. -/
def callWith (file : Text) : Call := ⟨false, false, some (Path.parse file), none⟩

def entryOf (name : Text) (level : Level) (message : Text) : Entry :=
  ⟨⟨loggerName (some name), level, message⟩, "12:00", "no bytes"⟩

theorem delivers_after_call_twoFiles : ∃ location,
    SetsUp (untouched.run [.call (callWith "a.log")]) (callWith "b.log") (some location)
        ((untouched.run [.call (callWith "a.log")]).configure (callWith "b.log")) ∧
      Delivers "[modmanifest] INFO i\n" (Utf8.encodeLossy "12:00 INFO modmanifest.x: i\n") (some location)
        (untouched.run [.call (callWith "a.log"), .call (callWith "b.log"), .ask (some "x")])
        (untouched.run [.call (callWith "a.log"), .call (callWith "b.log"), .ask (some "x"),
          .entry (entryOf "x" .info "i")]) ∧
      Grows
        (untouched.run [.call (callWith "a.log"), .call (callWith "b.log"), .ask (some "x"),
          .entry (entryOf "x" .info "i")])
        (untouched.run [.call (callWith "a.log"), .call (callWith "b.log"), .ask (some "x"),
          .entry (entryOf "x" .info "i"), .call (callWith "a.log")]) := by
  obtain ⟨log, hsets, hdelivers, hgrows⟩ :=
    delivers_after_call untouched [.call (callWith "a.log")] [.ask (some "x")] [.call (callWith "a.log")]
      (callWith "b.log") (entryOf "x" .info "i") (some "x") (by decide) rfl (by decide)
  have hopened : (openLog (untouched.run [.call (callWith "a.log")]).files "b.log" none).2 =
      .ok ⟨.slash, ["b.log"]⟩ := by cbv
  have hsome := hsets.log_isSome.2 ⟨rfl, exists_configure_eq_ok rfl hopened⟩
  obtain ⟨location, rfl⟩ := Option.isSome_iff_exists.1 hsome
  have hshown : (entryOf "x" .info "i").shown (callWith "b.log").level (some location).isSome =
      "[modmanifest] INFO i\n" := rfl
  have hwritten : (entryOf "x" .info "i").written (callWith "b.log").level =
      Utf8.encodeLossy "12:00 INFO modmanifest.x: i\n" := rfl
  rw [hshown, hwritten] at hdelivers
  exact ⟨location, hsets, hdelivers, hgrows⟩

/-- A record is not always written: not if the name of its logger begins with a dot, and not to the log file if it
has a surrogate. -/
theorem not_delivers_leadingDot :
    (untouched.configure (callWith "m.log")).2.toOption.isSome ∧
    ((untouched.run [.call (callWith "m.log"), .entry (entryOf ".x" .warning "w")]).console = "w\n" ∧
      (untouched.run [.call (callWith "m.log"), .entry (entryOf ".x" .warning "w")]).files.read "m.log" = .ok []) ∧
    ((untouched.run [.call (callWith "m.log"), .entry (entryOf ".x" .info "i")]).console = [] ∧
      (untouched.run [.call (callWith "m.log"), .entry (entryOf ".x" .info "i")]).files.read "m.log" = .ok []) ∧
    (untouched.run [.call (callWith "m.log"), .entry (entryOf "x" .info [.surrogate 0])]).files.read "m.log" = .ok [] := by
  obtain ⟨hconsole, hnames, hread⟩ : (untouched.configure (callWith "m.log")).1.console = [] ∧
      (untouched.configure (callWith "m.log")).1.names = [root] ∧
      (untouched.configure (callWith "m.log")).1.files.read "m.log" = .ok [] := by
    refine ⟨?_, ?_, ?_⟩ <;> cbv
  have hdotted : root ∉ lineage ((untouched.configure (callWith "m.log")).1.ask (loggerName (some ".x"))).names
      (loggerName (some ".x")) := by
    have halone : lineage ([root].insert (loggerName (some ".x"))) (loggerName (some ".x")) = [loggerName (some ".x")] := by
      cbv
    rw [ask, hnames, halone]
    decide
  have hwarning := write_of_not_mem (e := entryOf ".x" .warning "w") hdotted
  have hinfo := write_of_not_mem (e := entryOf ".x" .info "i") hdotted
  rw [if_pos (by decide)] at hwarning
  rw [if_neg (by decide)] at hinfo
  refine ⟨by cbv, ⟨?_, ?_⟩, ⟨?_, ?_⟩, ?_⟩
  · exact (congrArg Session.console hwarning).trans (congrArg (· ++ Text.ofString "w\n") hconsole)
  · exact (congrArg (fun s => s.files.read "m.log") hwarning).trans hread
  · exact (congrArg Session.console hinfo).trans hconsole
  · exact (congrArg (fun s => s.files.read "m.log") hinfo).trans hread
  · have hfiles := files_write_of_bytes? (s := (untouched.configure (callWith "m.log")).1)
      (e := entryOf "x" .info [.surrogate 0]) (by cbv)
    exact (congrArg (fun files => files.read "m.log") hfiles).trans hread

end Session

end ModuleCatalog.Log
