import ModuleCatalog.Artifact.Turns
import ModuleCatalog.Proofs.Artifact.Atomicity
import ModuleCatalog.Proofs.FileSystem.LastName
import ModuleCatalog.Proofs.FileSystem.Later

/-!
# Storing in turns is atomic

However calls with one target take turns, and wherever they stop, a file that is seen through the target is
what was there at first or a whole artifact. The invariant says of every location what may stand there, and of
every call which temporary file it has. One request of one call keeps it, because the paths of the other calls
still lead to their own files, or break off at the artifact that has replaced a link.
-/

namespace ModuleCatalog.Artifact

open FileSystem

variable {initial fs fs' : FileSystem} {target : Path} {IsStored : Bytes → Prop} {temporary : Path}
  {place location : List Text} {content : Bytes} {permissions : Nat}

/-! ## What stands where -/

/-- What may stand at a location while calls store artifacts at a target: what stood there at first, a new
directory, a temporary file, or an artifact where the target has led. -/
inductive Seen (initial : FileSystem) (target : Path) (IsStored : Bytes → Prop) (fs : FileSystem)
    (location : List Text) : Prop
  | same (h : fs.top.look location = initial.top.look location)
  | directory (hfree : initial.top.look location = none)
      (h : fs.top.look location = some (.directory []))
  | temporary {content : Bytes} {permissions : Nat} (hfree : initial.top.look location = none)
      (hbeside : IsBeside target location) (h : fs.top.look location = some (.file content permissions))
  | stored {earlier : FileSystem} {bytes : Bytes} (hearlier : Later initial initial earlier)
      (hlater : Later initial earlier fs) (hleads : earlier.LeadsTo .itself target.toText location)
      (hbytes : IsStored bytes) (h : fs.top.look location = some (.file bytes mode))

namespace Seen

theorem of_later (h : Seen initial target IsStored fs location) (hlater : Later initial fs fs')
    (hsame : fs'.top.look location = fs.top.look location) : Seen initial target IsStored fs' location := by
  cases h with
  | same h => exact .same (hsame.trans h)
  | directory hfree h => exact .directory hfree (hsame.trans h)
  | temporary hfree hbeside h => exact .temporary hfree hbeside (hsame.trans h)
  | stored hearlier hbefore hleads hbytes h =>
    exact .stored hearlier (hbefore.trans hlater) hleads hbytes (hsame.trans h)

theorem initial_eq_none (h : Seen initial target IsStored fs location)
    (hnone : fs.top.look location = none) : initial.top.look location = none := by
  cases h with
  | same h => exact h ▸ hnone
  | directory _ h | temporary _ _ h | stored _ _ _ _ h => cases hnone.symm.trans h

theorem initial_eq_link (h : Seen initial target IsStored fs location) {link : Text}
    (hlink : fs.top.look location = some (.link link)) :
    initial.top.look location = some (.link link) := by
  cases h with
  | same h => exact h ▸ hlink
  | directory _ h | temporary _ _ h | stored _ _ _ _ h => cases hlink.symm.trans h

end Seen

/-- What is known of a file system in which calls have worked. -/
structure Shared (initial : FileSystem) (target : Path) (IsStored : Bytes → Prop) (fs : FileSystem) :
    Prop where
  later : Later initial initial fs
  seen : ∀ location, Seen initial target IsStored fs location

namespace Shared

theorem refl (initial : FileSystem) (target : Path) (IsStored : Bytes → Prop) :
    Shared initial target IsStored initial :=
  ⟨.refl initial initial, fun _ => .same rfl⟩

theorem of_later (h : Shared initial target IsStored fs) (hlater : Later initial fs fs')
    (hseen : ∀ location, fs'.top.look location ≠ fs.top.look location →
      Seen initial target IsStored fs' location) : Shared initial target IsStored fs' := by
  refine ⟨h.later.trans hlater, fun location => ?_⟩
  by_cases hsame : fs'.top.look location = fs.top.look location
  · exact (h.seen location).of_later hlater hsame
  · exact hseen location hsame

/-- Directories are made where nothing stood at first. -/
theorem addsParents (h : Shared initial target IsStored fs) {path : Path}
    (hadds : AddsParents fs fs' path) : Later initial fs fs' ∧ Shared initial target IsStored fs' := by
  have hlater : Later initial fs fs' := by
    refine ⟨hadds.working, fun location => ?_⟩
    rcases hadds.look location with hsame | ⟨hnone, hadded, -⟩
    · exact .same hsame
    · refine .beside ((h.seen location).initial_eq_none hnone) ?_ ?_
      · simp [hnone]
      · simp [hadded]
  refine ⟨hlater, h.of_later hlater fun location hne => ?_⟩
  rcases hadds.look location with hsame | ⟨hnone, hadded, -⟩
  · exact absurd hsame hne
  · exact .directory ((h.seen location).initial_eq_none hnone) hadded

/-- A temporary file may come, change and go. -/
theorem beside (h : Shared initial target IsStored fs) (hworking : fs'.working = fs.working)
    (hfree : initial.top.look place = none) (hbeside : IsBeside target place)
    (hbefore : ∀ node, fs.top.look place = some node → node.isLeaf)
    (hafter : ∀ node, fs'.top.look place = some node → ∃ content permissions,
      node = .file content permissions)
    (hothers : ∀ other, other ≠ place → fs'.top.look other = fs.top.look other) :
    Later initial fs fs' ∧ Shared initial target IsStored fs' := by
  have hlater : Later initial fs fs' := by
    refine ⟨hworking, fun location => ?_⟩
    by_cases hlocation : location = place
    · subst hlocation
      refine .beside hfree hbefore fun link hlink => ?_
      obtain ⟨content, permissions, heq⟩ := hafter _ hlink
      cases heq
    · exact .same (hothers location hlocation)
  refine ⟨hlater, h.of_later hlater fun location hne => ?_⟩
  obtain rfl : location = place := by
    by_contra hlocation
    exact hne (hothers location hlocation)
  cases hlook : fs'.top.look location with
  | none => exact .same (hlook.trans hfree.symm)
  | some node =>
    obtain ⟨content, permissions, rfl⟩ := hafter node hlook
    exact .temporary hfree hbeside hlook

/-- An artifact may replace a file or link where the target leads. -/
theorem replaces (h : Shared initial target IsStored fs) (hworking : fs'.working = fs.working)
    (hfree : initial.top.look place = none) (hplace : fs.top.look place = some (.file content mode))
    (hgone : fs'.top.look place = none) (hne : location ≠ place)
    (hleads : fs.LeadsTo .itself target.toText location)
    (hbefore : ∀ node, fs.top.look location = some node → node.isDirectory = false)
    (hbytes : IsStored content) (hafter : fs'.top.look location = some (.file content mode))
    (hothers : ∀ other, other ≠ place → other ≠ location → fs'.top.look other = fs.top.look other) :
    Later initial fs fs' ∧ Shared initial target IsStored fs' := by
  have hlater : Later initial fs fs' := by
    refine ⟨hworking, fun other => ?_⟩
    by_cases hother : other = place
    · subst hother
      refine .beside hfree (fun node hnode => ?_) (by simp [hgone])
      rw [← Option.some.inj (hplace.symm.trans hnode)]
      rfl
    · by_cases hlocation : other = location
      · subst hlocation
        refine .replaced hbefore (fun link hlink => ?_) ⟨_, hafter, rfl⟩
        rw [(h.seen other).initial_eq_link hlink]
        exact Option.some_ne_none _
      · exact .same (hothers other hother hlocation)
  refine ⟨hlater, h.of_later hlater fun other hchanged => ?_⟩
  by_cases hother : other = place
  · subst hother
    exact .same (hgone.trans hfree.symm)
  · obtain rfl : other = location := by
      by_contra hlocation
      exact hchanged (hothers other hother hlocation)
    exact .stored h.later hlater hleads hbytes hafter

end Shared

/-! ## Temporary files of calls -/

/-- What a call knows of its temporary file: that it has made it where nothing stood, what is in it, and that
its path has led there. -/
structure Owns (initial : FileSystem) (target : Path) (fs : FileSystem) (temporary : Path)
    (place : List Text) (content : Bytes) (permissions : Nat) : Prop where
  checked : checkText temporary.toText = .ok ()
  led : ∃ earlier : FileSystem, Later initial earlier fs ∧ earlier.LeadsTo .itself temporary.toText place
  free : initial.top.look place = none
  beside : IsBeside target place
  file : fs.top.look place = some (.file content permissions)

namespace Owns

theorem of_later (h : Owns initial target fs temporary place content permissions)
    (hlater : Later initial fs fs') {content' : Bytes} {permissions' : Nat}
    (hfile : fs'.top.look place = some (.file content' permissions')) :
    Owns initial target fs' temporary place content' permissions' := by
  obtain ⟨earlier, hearlier, hleads⟩ := h.led
  exact ⟨h.checked, ⟨earlier, hearlier.trans hlater, hleads⟩, h.free, h.beside, hfile⟩

theorem at? (h : Owns initial target fs temporary place content permissions) :
    fs.top.at? place = some (.file content permissions) :=
  (Node.look_eq_some_iff rfl).1 h.file

theorem endsAt (h : Owns initial target fs temporary place content permissions) : fs.top.EndsAt place :=
  Node.endsAt_of_some h.at? rfl

theorem place_ne_nil (h : Owns initial target fs temporary place content permissions) : place ≠ [] := by
  obtain ⟨directory, name, rfl, -⟩ := h.beside
  simp

/-- The path still leads to the file, or it breaks off. -/
theorem hasTemporary_or_stop (h : Owns initial target fs temporary place content permissions) :
    HasTemporary (fs.dropAt place) temporary place fs content permissions ∨
      ∀ goal, goal ≠ .fileTarget → fs.lookup goal temporary.toText = .error .notDirectory := by
  obtain ⟨earlier, hearlier, hleads⟩ := h.led
  have hoff : Node.AgreeOff place (fs.dropAt place).top fs.top := agreeOff_dropAt h.place_ne_nil
  have hnone : (fs.dropAt place).top.at? place = none := at?_dropAt h.place_ne_nil
  apply (hearlier.leadsTo_or_stop hleads).imp_left
  intro hnow
  have hbefore : (fs.dropAt place).LeadsTo .itself temporary.toText place := by
    have hworking : (fs.dropAt place).working = fs.working := rfl
    apply hnow.transfer hworking hoff.symm h.endsAt
    simp [hnone]
  exact ⟨rfl, rfl, h.checked, hbefore, hnone, hoff, h.at?⟩

/-- Requests on the file leave everything else as it is. -/
theorem look_eq (h : Owns initial target fs temporary place content permissions) {after : FileSystem}
    {content' : Bytes} {permissions' : Nat}
    (hafter : HasTemporary (fs.dropAt place) temporary place after content' permissions')
    {other : List Text} (hother : other ≠ place) : after.top.look other = fs.top.look other := by
  have hnone : (fs.dropAt place).top.at? place = none := at?_dropAt h.place_ne_nil
  rw [← hafter.look_eq hother]
  exact (agreeOff_dropAt h.place_ne_nil).look_eq (Node.endsAt_of_none hnone).entries_eq_nil
    h.endsAt.entries_eq_nil hother

theorem locate_of_stop (h : Owns initial target fs temporary place content permissions)
    (hstop : ∀ goal, goal ≠ .fileTarget → fs.lookup goal temporary.toText = .error .notDirectory)
    {goal : Goal} (hgoal : goal ≠ .fileTarget) :
    fs.locate goal temporary.toText = .error (.fault .notDirectory [temporary.toText]) := by
  simp only [locate, h.checked, hstop goal hgoal, bind, Except.bind, Except.mapError]

theorem hasTemporary_of_changeFile (h : Owns initial target fs temporary place content permissions)
    {f : Bytes → Nat → Node} {content' : Bytes} {permissions' : Nat} {after : FileSystem}
    (hf : f content permissions = .file content' permissions')
    (hchange : fs.changeFile temporary f = .ok after) :
    HasTemporary (fs.dropAt place) temporary place after content' permissions' := by
  rcases h.hasTemporary_or_stop with htemporary | hstop
  · obtain ⟨after', hchange', hafter⟩ := htemporary.changeFile content' permissions' hf
    rwa [Except.ok.inj (hchange.symm.trans hchange')]
  · have hlocate : fs.locate .target temporary.toText = _ := h.locate_of_stop hstop (by decide)
    simp only [changeFile, hlocate, bind, Except.bind] at hchange
    cases hchange

/-- Moving the file to the target replaces what is no directory and no temporary file. -/
theorem exists_of_replace (h : Owns initial target fs temporary place content permissions)
    {after : FileSystem} (hreplace : fs.replace temporary target = .ok after) :
    ∃ location, location ≠ place ∧ fs.LeadsTo .itself target.toText location ∧
      (∀ node, fs.top.look location = some node → node.isDirectory = false) ∧
      Replaces (fs.dropAt place) target location content permissions after := by
  have htemporary : HasTemporary (fs.dropAt place) temporary place fs content permissions := by
    apply h.hasTemporary_or_stop.resolve_right
    intro hstop
    simp only [replace, bind_eq_ok_iff, mapError_eq_ok_iff] at hreplace
    obtain ⟨-, -, -, -, source, hsource, -⟩ := hreplace
    cases hsource.symm.trans (hstop .itself (by decide))
  obtain ⟨location, hreplaces⟩ := htemporary.replace hreplace
  have hnone : (fs.dropAt place).top.at? place = none := at?_dropAt h.place_ne_nil
  have hleads : fs.LeadsTo .itself target.toText location := by
    have hworking : fs.working = (fs.dropAt place).working := rfl
    apply hreplaces.leads.transfer hworking (agreeOff_dropAt h.place_ne_nil) (Node.endsAt_of_none hnone)
    exact htemporary.not_link
  have hne : location ≠ place := by
    rintro rfl
    exact not_isBeside_of_leadsTo hleads h.endsAt.not_directory h.beside
  refine ⟨location, hne, hleads, fun node hnode => hreplaces.replaced node ?_, hreplaces⟩
  rw [← hnode]
  exact htemporary.look_eq hne

end Owns

/-! ## One turn -/

namespace Call

/-- What a call that shares a file system with others has at a place. -/
def Holds (initial fs : FileSystem) (place : List Text) (c : Call) : Prop :=
  match c.phase with
  | .preparing | .creating | .finished _ => True
  | .writing temporary => Owns initial c.target fs temporary place [] 0o600
  | .syncing temporary | .permitting temporary =>
    ∃ bytes, Utf8.encode c.text = .ok bytes ∧ Owns initial c.target fs temporary place bytes 0o600
  | .replacing temporary =>
    ∃ bytes, Utf8.encode c.text = .ok bytes ∧ Owns initial c.target fs temporary place bytes mode
  | .cleaning temporary _ =>
    ∃ content permissions, Owns initial c.target fs temporary place content permissions

variable {c next : Call}

theorem Holds.owns (h : Holds initial fs place c) (hc : c.phase.temporary? = some temporary) :
    ∃ content permissions, Owns initial c.target fs temporary place content permissions := by
  obtain ⟨target, text, phase⟩ := c
  cases phase with
  | preparing | creating | finished => cases hc
  | writing =>
    obtain rfl := Option.some.inj hc
    exact ⟨_, _, h⟩
  | syncing | permitting | replacing =>
    obtain rfl := Option.some.inj hc
    obtain ⟨bytes, -, howns⟩ := h
    exact ⟨_, _, howns⟩
  | cleaning =>
    obtain rfl := Option.some.inj hc
    exact h

theorem Holds.of_later (h : Holds initial fs place c) (hlater : Later initial fs fs')
    (hsame : c.phase.temporary? ≠ none → fs'.top.look place = fs.top.look place) :
    Holds initial fs' place c := by
  obtain ⟨target, text, phase⟩ := c
  have hlook : ∀ temporary, phase.temporary? = some temporary → fs'.top.look place = fs.top.look place :=
    fun temporary hphase => hsame (by simp [hphase])
  cases phase with
  | preparing | creating | finished => trivial
  | writing temporary => exact Owns.of_later h hlater ((hlook temporary rfl).trans h.file)
  | syncing temporary | permitting temporary | replacing temporary =>
    obtain ⟨bytes, hbytes, howns⟩ := h
    exact ⟨bytes, hbytes, howns.of_later hlater ((hlook temporary rfl).trans howns.file)⟩
  | cleaning temporary failure =>
    obtain ⟨content, permissions, howns⟩ := h
    exact ⟨content, permissions, howns.of_later hlater ((hlook temporary rfl).trans howns.file)⟩

theorem holds_of_none (hc : c.phase.temporary? = none) : Holds initial fs place c := by
  obtain ⟨target, text, phase⟩ := c
  cases phase with
  | preparing | creating | finished => trivial
  | _ => cases hc

/-- What a turn of a call keeps: what is known of the file system, the temporary files of other calls, and
what the call itself has, perhaps at a new place. -/
structure Advances (initial : FileSystem) (IsStored : Bytes → Prop) (fs : FileSystem) (place : List Text)
    (c : Call) (next : Call × FileSystem) (place' : List Text) : Prop where
  later : Later initial fs next.2
  shared : Shared initial c.target IsStored next.2
  kept : ∀ {other content permissions}, IsBeside c.target other →
    fs.top.look other = some (.file content permissions) → (c.phase.temporary? ≠ none → other ≠ place) →
      next.2.top.look other = fs.top.look other
  holds : Holds initial next.2 place' next.1
  place : next.1.phase.temporary? ≠ none →
    (c.phase.temporary? ≠ none ∧ place' = place) ∨ fs.top.look place' = none

namespace Advances

theorem stay (h : Shared initial c.target IsStored fs) (hholds : Holds initial fs place next)
    (hnext : next.phase.temporary? ≠ none → c.phase.temporary? ≠ none) :
    Advances initial IsStored fs place c (next, fs) place :=
  ⟨.refl initial fs, h, fun _ _ _ => rfl, hholds, fun htemporary => .inl ⟨hnext htemporary, rfl⟩⟩

/-- A call changes its own temporary file. -/
theorem own (h : Shared initial c.target IsStored fs) (hc : c.phase.temporary? = some temporary)
    (howns : Owns initial c.target fs temporary place content permissions)
    (hworking : fs'.working = fs.working)
    (hafter : ∀ node, fs'.top.look place = some node → ∃ content permissions,
      node = .file content permissions)
    (hothers : ∀ other, other ≠ place → fs'.top.look other = fs.top.look other)
    (hholds : Later initial fs fs' → Holds initial fs' place next) :
    Advances initial IsStored fs place c (next, fs') place := by
  have hcall : c.phase.temporary? ≠ none := by simp [hc]
  have hleaf : ∀ node, fs.top.look place = some node → node.isLeaf := by
    intro node hnode
    rw [← Option.some.inj (howns.file.symm.trans hnode)]
    rfl
  obtain ⟨hlater, hshared⟩ := h.beside hworking howns.free howns.beside hleaf hafter hothers
  exact ⟨hlater, hshared, fun _ _ hother => hothers _ (hother hcall), hholds hlater,
    fun _ => .inl ⟨hcall, rfl⟩⟩

end Advances

section Phases

variable (h : Shared initial c.target IsStored fs)

include h

theorem advances_clean (hc : c.phase.temporary? = some temporary)
    (howns : Owns initial c.target fs temporary place content permissions) (failure : Failure) :
    Advances initial IsStored fs place c ({ c with phase := .cleaning temporary failure }, fs) place :=
  .stay h ⟨content, permissions, howns⟩ fun _ => by simp [hc]

theorem advances_proceed (hc : c.phase.temporary? = some temporary)
    (howns : Owns initial c.target fs temporary place content permissions) {phase : Phase}
    {result : Except Failure FileSystem}
    (hok : ∀ after, result = .ok after →
      Advances initial IsStored fs place c ({ c with phase }, after) place) :
    Advances initial IsStored fs place c (c.proceed temporary phase fs result) place := by
  cases result with
  | ok after => exact hok after rfl
  | error failure => exact advances_clean h hc howns failure

/-- A request that changes the temporary file. -/
theorem advances_changeFile (hc : c.phase.temporary? = some temporary)
    (howns : Owns initial c.target fs temporary place content permissions) {f : Bytes → Nat → Node}
    (hchange : fs.changeFile temporary f = .ok fs') {content' : Bytes} {permissions' : Nat}
    (hf : f content permissions = .file content' permissions')
    (hholds : Owns initial c.target fs' temporary place content' permissions' →
      Holds initial fs' place next) :
    Advances initial IsStored fs place c (next, fs') place := by
  have hafter := howns.hasTemporary_of_changeFile hf hchange
  have hfile : fs'.top.look place = some (.file content' permissions') :=
    (Node.look_eq_some_iff rfl).2 hafter.file
  apply Advances.own h hc howns hafter.working
  · intro node hnode
    exact ⟨content', permissions', Option.some.inj (hnode.symm.trans hfile)⟩
  · exact fun other hother => howns.look_eq hafter hother
  · exact fun hlater => hholds (howns.of_later hlater hfile)

theorem advances_preparing {path : Path} (hadds : AddsParents fs fs' path)
    (hnext : next.phase.temporary? = none) : Advances initial IsStored fs place c (next, fs') place := by
  obtain ⟨hlater, hshared⟩ := h.addsParents hadds
  refine ⟨hlater, hshared, fun {other content permissions} _ hfile _ => ?_, holds_of_none hnext,
    fun hne => absurd hnext hne⟩
  rcases hadds.look other with hsame | ⟨hnone, -⟩
  · exact hsame
  · cases hfile.symm.trans hnone

theorem advances_creating {tries n : Nat}
    (hcreate : fs.createFrom c.target tries n = .ok (temporary, fs')) :
    ∃ place', Advances initial IsStored fs place c ({ c with phase := .writing temporary }, fs') place' := by
  obtain ⟨place', hnew⟩ := createFrom_eq_ok hcreate
  have hlook := Node.look_eq_none_iff.2 hnew.free
  have hfree := (h.seen place').initial_eq_none hlook
  have hbeside := isBeside_of_createFrom hcreate hnew.leads hnew.free
  have hfile : fs'.top.look place' = some (.file [] 0o600) := (Node.look_eq_some_iff rfl).2 hnew.file
  obtain ⟨hlater, hshared⟩ := h.beside hnew.working hfree hbeside (by simp [hlook])
    (fun node hnode => ⟨[], 0o600, Option.some.inj (hnode.symm.trans hfile)⟩)
    (fun other hother => (hnew.look_eq hother).symm)
  refine ⟨place', hlater, hshared, fun {other content permissions} _ hother _ => ?_, ?_, fun _ => .inr hlook⟩
  · refine (hnew.look_eq ?_).symm
    rintro rfl
    cases hother.symm.trans hlook
  · exact ⟨hnew.checked, ⟨fs, hlater, hnew.leads⟩, hfree, hbeside, hfile⟩

theorem advances_writing (hphase : c.phase = .writing temporary)
    (howns : Owns initial c.target fs temporary place [] 0o600) :
    Advances initial IsStored fs place c
      (c.proceed temporary (.syncing temporary) fs (c.writeText fs temporary)) place := by
  have hc : c.phase.temporary? = some temporary := by rw [hphase]; rfl
  apply advances_proceed h hc howns
  intro after hwrite
  obtain ⟨bytes, hbytes, hwrite⟩ := bind_eq_ok_iff.1 hwrite
  have hchange : fs.changeFile temporary (fun _ mode => .file bytes mode) = .ok after :=
    mapError_eq_ok_iff.1 hwrite
  apply advances_changeFile h hc howns hchange rfl
  exact fun howns => ⟨bytes, mapError_eq_ok_iff.1 hbytes, howns⟩

theorem advances_permitting (hphase : c.phase = .permitting temporary) {bytes : Bytes}
    (hbytes : Utf8.encode c.text = .ok bytes)
    (howns : Owns initial c.target fs temporary place bytes 0o600) :
    Advances initial IsStored fs place c
      (c.proceed temporary (.replacing temporary) fs ((fs.permit temporary mode).mapError c.failure)) place := by
  have hc : c.phase.temporary? = some temporary := by rw [hphase]; rfl
  apply advances_proceed h hc howns
  intro after hpermit
  have hchange : fs.changeFile temporary (fun content _ => .file content mode) = .ok after :=
    mapError_eq_ok_iff.1 hpermit
  apply advances_changeFile h hc howns hchange rfl
  exact fun howns => ⟨bytes, hbytes, howns⟩

theorem advances_replacing (hphase : c.phase = .replacing temporary) {bytes : Bytes}
    (hbytes : IsStored bytes) (howns : Owns initial c.target fs temporary place bytes mode) :
    Advances initial IsStored fs place c (c.proceed temporary (.finished (.ok ())) fs
      ((fs.replace temporary c.target).mapError c.failure)) place := by
  have hc : c.phase.temporary? = some temporary := by rw [hphase]; rfl
  apply advances_proceed h hc howns
  intro after hreplace
  obtain ⟨location, hne, hleads, hbefore, hreplaces⟩ :=
    howns.exists_of_replace (mapError_eq_ok_iff.1 hreplace)
  have hnone : (fs.dropAt place).top.at? place = none := at?_dropAt howns.place_ne_nil
  have hgone : after.top.look place = none := by
    rw [hreplaces.others place hne.symm]
    exact Node.look_eq_none_iff.2 hnone
  have hothers : ∀ other, other ≠ place → other ≠ location → after.top.look other = fs.top.look other := by
    intro other hplace hlocation
    rw [hreplaces.others other hlocation]
    exact (agreeOff_dropAt howns.place_ne_nil).look_eq (Node.endsAt_of_none hnone).entries_eq_nil
      howns.endsAt.entries_eq_nil hplace
  obtain ⟨hlater, hshared⟩ := h.replaces hreplaces.working howns.free howns.file hgone hne hleads hbefore
    hbytes hreplaces.file hothers
  refine ⟨hlater, hshared, fun {other content permissions} hbeside _ hother => ?_, trivial, fun hne => ?_⟩
  · apply hothers other (hother (by simp [hc]))
    rintro rfl
    exact not_isBeside_of_leadsTo hleads (Node.not_directory_look_iff.1 hbefore) hbeside
  · exact absurd rfl hne

theorem advances_cleaning {failure : Failure} (hphase : c.phase = .cleaning temporary failure)
    (howns : Owns initial c.target fs temporary place content permissions) (outcome : Except Failure Unit) :
    Advances initial IsStored fs place c
      ({ c with phase := .finished outcome }, (fs.remove temporary).toOption.getD fs) place := by
  have hc : c.phase.temporary? = some temporary := by rw [hphase]; rfl
  have hnone : (fs.dropAt place).top.at? place = none := at?_dropAt howns.place_ne_nil
  rcases howns.hasTemporary_or_stop with htemporary | hstop
  · have hworking : (fs.dropAt place).working = fs.working := rfl
    rw [htemporary.remove]
    apply Advances.own h hc howns hworking
    · simp [Node.look_eq_none_iff.2 hnone]
    · intro other hother
      exact htemporary.look_eq hother
    · exact fun _ => trivial
  · have hlocate : fs.locate .itself temporary.toText = _ := howns.locate_of_stop hstop (by decide)
    simp only [remove, hlocate, bind, Except.bind]
    exact .stay h trivial fun hne => absurd rfl hne

/-! ### Any phase -/

theorem advances_prepare {path : Path} (hphase : c.phase = .preparing)
    (hadds : AddsParents fs (fs.ensureDirectories c.target.parent).1 path) :
    ∃ place', Advances initial IsStored fs place c (c.answer fs) place' := by
  simp only [answer, hphase]
  cases hmake : fs.ensureDirectories c.target.parent with
  | mk fs' result =>
    rw [hmake] at hadds
    cases result with
    | ok => exact ⟨place, advances_preparing h hadds rfl⟩
    | error cause => exact ⟨place, advances_preparing h hadds rfl⟩

theorem advances_create (firstName : Nat) :
    ∃ place', Advances initial IsStored fs place c
      (match fs.createFrom c.target (fs.entryCount (fs.absolute c.target.parent) + 1) firstName with
        | .ok (temporary, fs) => ({ c with phase := .writing temporary }, fs)
        | .error cause => ({ c with phase := .finished (.error (c.failure cause)) }, fs)) place' := by
  cases hcreate : fs.createFrom c.target (fs.entryCount (fs.absolute c.target.parent) + 1) firstName with
  | ok result => exact advances_creating h hcreate
  | error cause => exact ⟨place, .stay h trivial fun hne => absurd rfl hne⟩

/-- What a refused write has written before. -/
theorem advances_attempt {temporary : Path} (progress : Nat) (failure : Failure)
    (hholds : Holds initial fs place c) (hphase : c.phase = .writing temporary) :
    Advances initial IsStored fs place c
      ({ c with phase := .cleaning temporary failure }, c.attempt progress fs) place := by
  have hc : c.phase.temporary? = some temporary := by rw [hphase]; rfl
  obtain ⟨content, permissions, howns⟩ := hholds.owns hc
  simp only [attempt, hphase]
  cases hencode : Utf8.encode c.text with
  | error cause => exact advances_clean h hc howns failure
  | ok bytes =>
    cases hwrite : fs.write temporary (bytes.take progress) with
    | error cause =>
      simp only [hwrite]
      exact advances_clean h hc howns failure
    | ok after =>
      have hchange : fs.changeFile temporary (fun _ mode => .file (bytes.take progress) mode) = .ok after :=
        hwrite
      simp only [hwrite]
      exact advances_changeFile h hc howns hchange rfl fun howns => ⟨_, _, howns⟩

variable (hstored : ∀ bytes, Utf8.encode c.text = .ok bytes → IsStored bytes)
  (hholds : Holds initial fs place c)

include hstored hholds

theorem advances_answer : ∃ place', Advances initial IsStored fs place c (c.answer fs) place' := by
  cases hphase : c.phase with
  | preparing =>
    have hadds := addsParents_ensureDirectories fs c.target.parent c.target.parent.parts.length
    rw [upTo_length] at hadds
    exact advances_prepare h hphase hadds
  | creating =>
    simp only [answer, hphase]
    exact advances_create h 0
  | writing temporary =>
    simp only [Holds, hphase] at hholds
    simp only [answer, hphase]
    exact ⟨place, advances_writing h hphase hholds⟩
  | syncing temporary =>
    simp only [Holds, hphase] at hholds
    simp only [answer, hphase]
    exact ⟨place, .stay h hholds fun _ => by simp [hphase, Phase.temporary?]⟩
  | permitting temporary =>
    simp only [Holds, hphase] at hholds
    simp only [answer, hphase]
    obtain ⟨bytes, hbytes, howns⟩ := hholds
    exact ⟨place, advances_permitting h hphase hbytes howns⟩
  | replacing temporary =>
    simp only [Holds, hphase] at hholds
    simp only [answer, hphase]
    obtain ⟨bytes, hbytes, howns⟩ := hholds
    exact ⟨place, advances_replacing h hphase (hstored bytes hbytes) howns⟩
  | cleaning temporary failure =>
    simp only [Holds, hphase] at hholds
    simp only [answer, hphase]
    obtain ⟨content, permissions, howns⟩ := hholds
    exact ⟨place, advances_cleaning h hphase howns _⟩
  | finished outcome =>
    simp only [answer, hphase]
    exact ⟨place, .stay h hholds fun hne => hne⟩

theorem advances_refuse (refusal : Refusal) :
    ∃ place', Advances initial IsStored fs place c (c.refuse refusal fs) place' := by
  have hanswer := advances_answer h hstored hholds
  have hclean : ∀ temporary failure, c.phase.temporary? = some temporary → ∃ place',
      Advances initial IsStored fs place c ({ c with phase := .cleaning temporary failure }, fs) place' := by
    intro temporary failure hc
    obtain ⟨content, permissions, howns⟩ := hholds.owns hc
    exact ⟨place, advances_clean h hc howns failure⟩
  cases hphase : c.phase with
  | preparing =>
    simp only [refuse, hphase, attempt]
    exact ⟨place, advances_preparing h (addsParents_ensureDirectories fs _ refusal.progress) rfl⟩
  | creating =>
    simp only [refuse, hphase, attempt]
    exact ⟨place, .stay h trivial fun hne => absurd rfl hne⟩
  | writing temporary =>
    simp only [refuse, hphase]
    exact ⟨place, advances_attempt h refusal.progress _ hholds hphase⟩
  | syncing temporary | permitting temporary | replacing temporary =>
    simp only [refuse, hphase, attempt]
    exact hclean temporary _ (by rw [hphase]; rfl)
  | cleaning temporary failure | finished outcome =>
    simp only [refuse, hphase]
    exact hanswer

theorem advances_step (refusal : Option Refusal) :
    ∃ place', Advances initial IsStored fs place c (c.step refusal fs) place' := by
  cases refusal with
  | none => exact advances_answer h hstored hholds
  | some refusal => exact advances_refuse h hstored hholds refusal

/-- One turn of a call. -/
theorem advances_stepFrom (firstName : Nat) (refusal : Option Refusal) :
    ∃ place', Advances initial IsStored fs place c (c.stepFrom firstName refusal fs) place' := by
  unfold stepFrom
  split
  · exact advances_create h firstName
  · exact advances_step h hstored hholds _

end Phases

theorem target_text_stepFrom (firstName : Nat) (c : Call) (refusal : Option Refusal) (fs : FileSystem) :
    (c.stepFrom firstName refusal fs).1.target = c.target ∧
      (c.stepFrom firstName refusal fs).1.text = c.text := by
  unfold stepFrom
  split
  · split <;> exact ⟨rfl, rfl⟩
  · exact target_text_step c _ fs

/-- Names that are tried from the first one on are those of a call that is alone. -/
theorem stepFrom_zero : stepFrom 0 = step := by
  funext c refusal fs
  unfold stepFrom
  split
  · next hphase =>
    simp only [step, answer, hphase]
    rfl
  · rfl

end Call

/-! ## All turns -/

namespace Calls

/-- What is known between two turns: each call that has a temporary file has it at a place of its own. -/
structure Sound (initial : FileSystem) (target : Path) (IsStored : Bytes → Prop) (s : Calls)
    (place : Nat → List Text) : Prop where
  shared : Shared initial target IsStored s.fs
  target_eq : ∀ {i : Nat} {c : Call}, s.calls[i]? = some c → c.target = target
  stored : ∀ {i : Nat} {c : Call}, s.calls[i]? = some c →
    ∀ bytes, Utf8.encode c.text = .ok bytes → IsStored bytes
  holds : ∀ {i : Nat} {c : Call}, s.calls[i]? = some c → c.Holds initial s.fs (place i)
  apart : ∀ {i j : Nat} {c d : Call}, s.calls[i]? = some c → s.calls[j]? = some d →
    c.phase.temporary? ≠ none → d.phase.temporary? ≠ none → place i = place j → i = j

variable {s : Calls} {places : Nat → List Text}

theorem Sound.owns (h : Sound initial target IsStored s places) {i : Nat} {c : Call}
    (hi : s.calls[i]? = some c) (hc : c.phase.temporary? = some temporary) :
    ∃ content permissions, Owns initial target s.fs temporary (places i) content permissions :=
  h.target_eq hi ▸ (h.holds hi).owns hc

theorem getElem?_set_cases {calls : List Call} {i j : Nat} {c d : Call}
    (h : (calls.set i c)[j]? = some d) : (j = i ∧ d = c) ∨ (j ≠ i ∧ calls[j]? = some d) := by
  rw [List.getElem?_set] at h
  split at h
  · next heq =>
    split at h
    · exact .inl ⟨heq.symm, (Option.some.inj h).symm⟩
    · cases h
  · next hne => exact .inr ⟨Ne.symm hne, h⟩

/-- The temporary file of another call stays as it is when a call takes a turn. -/
theorem Sound.look_other (h : Sound initial target IsStored s places) {i j : Nat} {c d : Call}
    {place' : List Text} {next : Call × FileSystem} (hi : s.calls[i]? = some c)
    (hadvances : Call.Advances initial IsStored s.fs (places i) c next place') (hj : s.calls[j]? = some d)
    (hne : j ≠ i) (hd : d.phase.temporary? ≠ none) :
    next.2.top.look (places j) = s.fs.top.look (places j) := by
  obtain ⟨temporary, htemporary⟩ := Option.ne_none_iff_exists'.1 hd
  obtain ⟨content, permissions, howns⟩ := h.owns hj htemporary
  apply hadvances.kept (h.target_eq hi ▸ howns.beside) howns.file
  exact fun hc heq => hne (h.apart hj hi hd hc heq)

theorem Sound.set (h : Sound initial target IsStored s places) {i : Nat} {c : Call} {place' : List Text}
    {next : Call × FileSystem} (hi : s.calls[i]? = some c)
    (hadvances : Call.Advances initial IsStored s.fs (places i) c next place')
    (htarget : next.1.target = c.target) (htext : next.1.text = c.text) :
    Sound initial target IsStored ⟨s.calls.set i next.1, next.2⟩ (Function.update places i place') where
  shared := h.target_eq hi ▸ hadvances.shared
  target_eq := by
    intro j d hj
    rcases getElem?_set_cases hj with ⟨-, rfl⟩ | ⟨-, hj⟩
    · exact htarget.trans (h.target_eq hi)
    · exact h.target_eq hj
  stored := by
    intro j d hj
    rcases getElem?_set_cases hj with ⟨-, rfl⟩ | ⟨-, hj⟩
    · exact htext ▸ h.stored hi
    · exact h.stored hj
  holds := by
    intro j d hj
    rcases getElem?_set_cases hj with ⟨rfl, rfl⟩ | ⟨hne, hj⟩
    · rw [Function.update_self]
      exact hadvances.holds
    · rw [Function.update_of_ne hne]
      exact (h.holds hj).of_later hadvances.later fun hd => h.look_other hi hadvances hj hne hd
  apart := by
    -- A new place was free, so no other call has its file there.
    have hnew : ∀ {j : Nat} {d : Call}, s.calls[j]? = some d → j ≠ i → d.phase.temporary? ≠ none →
        next.1.phase.temporary? ≠ none → places j ≠ place' := by
      intro j d hj hne hd hnext heq
      rcases hadvances.place hnext with ⟨hc, hsame⟩ | hfree
      · exact hne (h.apart hj hi hd hc (heq.trans hsame))
      · obtain ⟨temporary, htemporary⟩ := Option.ne_none_iff_exists'.1 hd
        obtain ⟨content, permissions, howns⟩ := h.owns hj htemporary
        rw [← heq, howns.file] at hfree
        cases hfree
    intro j k d e hj hk hd he heq
    rcases getElem?_set_cases hj with ⟨rfl, rfl⟩ | ⟨hji, hother⟩ <;>
      rcases getElem?_set_cases hk with ⟨rfl, rfl⟩ | ⟨hki, hthird⟩
    · rfl
    · rw [Function.update_self, Function.update_of_ne hki] at heq
      exact absurd heq.symm (hnew hthird hki he hd)
    · rw [Function.update_self, Function.update_of_ne hji] at heq
      exact absurd heq (hnew hother hji hd he)
    · rw [Function.update_of_ne hji, Function.update_of_ne hki] at heq
      exact h.apart hother hthird hd he heq

theorem take_eq {turn : Turn} {c : Call} (h : s.calls[turn.call]? = some c) :
    s.take turn = ⟨s.calls.set turn.call (c.stepFrom turn.firstName turn.refusal s.fs).1,
      (c.stepFrom turn.firstName turn.refusal s.fs).2⟩ := by
  simp only [take, h]

/-- The requests of a call that is alone are turns. -/
theorem exists_turns_of_complete (c : Call) (refusals : List (Option Refusal)) (fs : FileSystem) :
    ∃ turns, (run ⟨[c], fs⟩ turns).fs = (c.complete refusals fs).1 := by
  fun_induction c.complete refusals fs with
  | case1 => exact ⟨[], rfl⟩
  | case2 c refusals fs houtcome next ih =>
    obtain ⟨turns, hturns⟩ := ih
    let turn : Turn := ⟨0, refusals.headD none, 0⟩
    have htake : take ⟨[c], fs⟩ turn = ⟨[next.1], next.2⟩ := by
      have hcall : (⟨[c], fs⟩ : Calls).calls[turn.call]? = some c := rfl
      rw [take_eq hcall, Call.stepFrom_zero]
      rfl
    refine ⟨turn :: turns, ?_⟩
    rw [← hturns, ← htake]
    rfl

theorem exists_sound_take (h : Sound initial target IsStored s places) (turn : Turn) :
    ∃ places, Sound initial target IsStored (s.take turn) places := by
  cases hcall : s.calls[turn.call]? with
  | none =>
    simp only [take, hcall]
    exact ⟨places, h⟩
  | some c =>
    obtain ⟨htarget, htext⟩ := Call.target_text_stepFrom turn.firstName c turn.refusal s.fs
    obtain ⟨place', hadvances⟩ := Call.advances_stepFrom (h.target_eq hcall ▸ h.shared) (h.stored hcall)
      (h.holds hcall) turn.firstName turn.refusal
    rw [take_eq hcall]
    exact ⟨_, h.set hcall hadvances htarget htext⟩

theorem exists_sound_run (h : Sound initial target IsStored s places) (turns : List Turn) :
    ∃ places, Sound initial target IsStored (s.run turns) places := by
  induction turns generalizing s places with
  | nil => exact ⟨places, h⟩
  | cons turn turns ih =>
    obtain ⟨places', htake⟩ := exists_sound_take h turn
    exact ih htake

/-- Whether bytes are the artifact of a request. -/
def IsArtifactOf (requests : List (Manifest × Int)) (bytes : Bytes) : Prop :=
  ∃ request ∈ requests, ∃ text, encode request.1 request.2 = .ok text ∧ Utf8.encode text = .ok bytes

theorem sound_start (initial : FileSystem) (target : Path) (requests : List (Manifest × Int)) :
    Sound initial target (IsArtifactOf requests) (start initial target requests) fun _ => [] := by
  have hcalls : ∀ {i : Nat} {c : Call}, (start initial target requests).calls[i]? = some c →
      ∃ request ∈ requests, ∃ text, encode request.1 request.2 = .ok text ∧
        c = ⟨target, text, .preparing⟩ := by
    intro i c hc
    obtain ⟨request, hrequest, hstart⟩ := List.mem_filterMap.1 (List.mem_of_getElem? hc)
    refine ⟨request, hrequest, ?_⟩
    cases hencode : encode request.1 request.2 with
    | error problem =>
      simp only [Call.start, hencode] at hstart
      cases hstart
    | ok text =>
      simp only [Call.start, hencode] at hstart
      exact ⟨text, rfl, (Option.some.inj hstart).symm⟩
  refine ⟨.refl initial target _, ?_, ?_, ?_, ?_⟩
  · intro i c hc
    obtain ⟨_, -, _, -, rfl⟩ := hcalls hc
    rfl
  · intro i c hc bytes hbytes
    obtain ⟨request, hrequest, text, hencode, rfl⟩ := hcalls hc
    exact ⟨request, hrequest, text, hencode, hbytes⟩
  · intro i c hc
    obtain ⟨_, -, _, -, rfl⟩ := hcalls hc
    trivial
  · intro i j c d hc _ htemporary
    obtain ⟨_, -, _, -, rfl⟩ := hcalls hc
    exact absurd rfl htemporary

end Calls

end ModuleCatalog.Artifact
