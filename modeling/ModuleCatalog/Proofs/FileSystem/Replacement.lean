import ModuleCatalog.Proofs.FileSystem.Parents

/-!
# Temporary files

A temporary file stands at a place that was free before, and only requests on its path change what stands
there. Removing it gives the tree as it was; moving it to a target changes what stands where the target
leads, and nothing else.
-/

namespace ModuleCatalog.FileSystem

open Node (AgreeOff)

/-- A temporary file of a content and permissions that stands at a location of a file system, and is all
that has been added to an earlier one. -/
structure HasTemporary (before : FileSystem) (temporary : Path) (location : List Text) (fs : FileSystem)
    (content : Bytes) (mode : Nat) : Prop where
  working : fs.working = before.working
  homes : fs.homes = before.homes
  checked : checkText temporary.toText = .ok ()
  leads : before.LeadsTo .itself temporary.toText location
  free : before.top.at? location = none
  off : AgreeOff location before.top fs.top
  file : fs.top.at? location = some (.file content mode)

/-- What is seen of a file system after a file has taken the place to which a path leads, whether the place
was free or a file or link stood there. -/
structure Replaces (before : FileSystem) (path : Path) (location : List Text) (content : Bytes) (mode : Nat)
    (after : FileSystem) : Prop where
  working : after.working = before.working
  homes : after.homes = before.homes
  checked : checkText path.toText = .ok ()
  leads : before.LeadsTo .itself path.toText location
  replaced : ∀ node, before.top.look location = some node → node.isDirectory = false
  file : after.top.look location = some (.file content mode)
  others : ∀ other, other ≠ location → after.top.look other = before.top.look other

/-- Whether a path leads to a location whatever stands there, so not on through a link that does. -/
def LeadsAround (fs : FileSystem) (path : Path) (location : List Text) : Prop :=
  (fs.dropAt location).LeadsTo .itself path.toText location

/-! ## Places in directories -/

theorem exists_eq_concat {location : List Text} (h : location ≠ []) :
    ∃ directory name, location = directory ++ [name] :=
  ⟨_, _, (List.dropLast_concat_getLast h).symm⟩

theorem putAt_concat (fs : FileSystem) (directory : List Text) (name : Text) (node : Node) :
    fs.putAt (directory ++ [name]) node = fs.put directory name node := by
  simp [putAt]

theorem dropAt_concat (fs : FileSystem) (directory : List Text) (name : Text) :
    fs.dropAt (directory ++ [name]) = fs.drop directory name := by
  simp [dropAt]

theorem at?_dropAt {fs : FileSystem} {location : List Text} (h : location ≠ []) :
    (fs.dropAt location).top.at? location = none := by
  obtain ⟨directory, name, rfl⟩ := exists_eq_concat h
  rw [dropAt_concat]
  exact Node.at?_erase directory name fs.top

theorem agreeOff_dropAt {fs : FileSystem} {location : List Text} (h : location ≠ []) :
    AgreeOff location (fs.dropAt location).top fs.top := by
  obtain ⟨directory, name, rfl⟩ := exists_eq_concat h
  rw [dropAt_concat]
  exact Node.agreeOff_erase directory name fs.top

namespace HasTemporary

variable {before fs : FileSystem} {temporary : Path} {location : List Text} {content : Bytes} {mode : Nat}

theorem location_ne_nil (h : HasTemporary before temporary location fs content mode) : location ≠ [] := by
  rintro rfl
  cases h.free

theorem endsAt (h : HasTemporary before temporary location fs content mode) : fs.top.EndsAt location :=
  Node.endsAt_of_some h.file rfl

theorem not_link (h : HasTemporary before temporary location fs content mode) (target : Text) :
    fs.top.at? location ≠ some (.link target) := by
  intro hlink
  cases h.file.symm.trans hlink

theorem look_eq (h : HasTemporary before temporary location fs content mode) {other : List Text}
    (hother : other ≠ location) : before.top.look other = fs.top.look other :=
  h.off.look_eq (Node.endsAt_of_none h.free).entries_eq_nil h.endsAt.entries_eq_nil hother

theorem leadsTo (h : HasTemporary before temporary location fs content mode) :
    fs.LeadsTo .itself temporary.toText location :=
  h.leads.transfer h.working h.off (Node.endsAt_of_none h.free) h.not_link

theorem locate_itself (h : HasTemporary before temporary location fs content mode) :
    fs.locate .itself temporary.toText = .ok (.entry location (.file content mode)) :=
  locate_eq_ok_iff.2 ⟨h.checked, h.leadsTo.lookup_eq_entry h.file⟩

theorem locate_target (h : HasTemporary before temporary location fs content mode) :
    fs.locate .target temporary.toText = .ok (.entry location (.file content mode)) :=
  locate_eq_ok_iff.2 ⟨h.checked, (h.leadsTo.target h.not_link).lookup_eq_entry h.file⟩

/-! ## Requests on a temporary file -/

theorem changeFile (h : HasTemporary before temporary location fs content mode) (content' : Bytes)
    (mode' : Nat) {f : Bytes → Nat → Node} (hf : f content mode = .file content' mode') :
    ∃ after, fs.changeFile temporary f = .ok after ∧
      HasTemporary before temporary location after content' mode' := by
  refine ⟨fs.putAt location (.file content' mode'), ?_, ?_⟩
  · simp only [FileSystem.changeFile, h.locate_target, bind, Except.bind, hf]
  · obtain ⟨directory, name, rfl⟩ := exists_eq_concat h.location_ne_nil
    obtain ⟨entries, hdirectory⟩ := exists_directory_of_child h.file
    rw [putAt_concat]
    exact { h with
      working := h.working
      homes := h.homes
      off := h.off.trans (Node.agreeOff_put directory name _ fs.top).symm
      file := Node.at?_put hdirectory name _ }

theorem write (h : HasTemporary before temporary location fs content mode) (content' : Bytes) :
    ∃ after, fs.write temporary content' = .ok after ∧
      HasTemporary before temporary location after content' mode :=
  h.changeFile content' mode rfl

theorem permit (h : HasTemporary before temporary location fs content mode) (mode' : Nat) :
    ∃ after, fs.permit temporary mode' = .ok after ∧
      HasTemporary before temporary location after content mode' :=
  h.changeFile content mode' rfl

/-! ## Taking a temporary file away -/

theorem look_dropAt (h : HasTemporary before temporary location fs content mode) (other : List Text) :
    (fs.dropAt location).top.look other = before.top.look other := by
  have hnone : (fs.dropAt location).top.at? location = none := at?_dropAt h.location_ne_nil
  by_cases hother : other = location
  · subst hother
    rw [Node.look_eq_none_iff.2 hnone, Node.look_eq_none_iff.2 h.free]
  · have hoff : AgreeOff location (fs.dropAt location).top before.top :=
      (agreeOff_dropAt h.location_ne_nil).trans h.off.symm
    exact hoff.look_eq (Node.endsAt_of_none hnone).entries_eq_nil
      (Node.endsAt_of_none h.free).entries_eq_nil hother

theorem remove (h : HasTemporary before temporary location fs content mode) :
    fs.remove temporary = .ok (fs.dropAt location) := by
  simp only [FileSystem.remove, h.locate_itself, bind, Except.bind]

end HasTemporary

/-! ## Making a temporary file -/

theorem createFrom_eq_ok {fs after : FileSystem} {target temporary : Path} {tries n : Nat}
    (h : fs.createFrom target tries n = .ok (temporary, after)) :
    ∃ location, HasTemporary fs temporary location after [] 0o600 := by
  induction tries generalizing n with
  | zero => cases h
  | succ tries ih =>
    simp only [createFrom, bind_eq_ok_iff, locate_eq_ok_iff] at h
    obtain ⟨p, ⟨hcheck, hlookup⟩, hresult⟩ := h
    cases p with
    | entry location node => exact ih hresult
    | free directory name =>
      obtain ⟨rfl, rfl⟩ := Prod.mk.inj (Except.ok.inj hresult)
      obtain ⟨⟨entries, hdirectory⟩, hfree⟩ := lookup_free hlookup
      exact ⟨directory ++ [name], rfl, rfl, hcheck, ⟨_, hlookup, rfl⟩, hfree,
        (Node.agreeOff_put directory name _ fs.top).symm, Node.at?_put hdirectory name _⟩

/-! ## Moving a temporary file -/

namespace HasTemporary

variable {before fs after : FileSystem} {temporary target : Path} {location : List Text}
  {content : Bytes} {mode : Nat}

/-- The place to which a path leads beside a temporary file is the one to which it led before. -/
theorem leadsTo_before (h : HasTemporary before temporary location fs content mode) {path : Text}
    {other : List Text} (hleads : fs.LeadsTo .itself path other) : before.LeadsTo .itself path other := by
  apply hleads.transfer h.working.symm h.off.symm h.endsAt
  intro target hlink
  cases h.free.symm.trans hlink

theorem exists_directory_dropAt (h : HasTemporary before temporary location fs content mode)
    {directory : List Text} {entries : List (Text × Node)}
    (hdirectory : fs.top.at? directory = some (.directory entries)) :
    ∃ entries, (fs.dropAt location).top.at? directory = some (.directory entries) := by
  have hbefore := h.off.symm.at?_eq_directory
    (not_prefix_of_directory h.endsAt.not_directory hdirectory) hdirectory
  rw [← Node.look_eq_directory_iff, h.look_dropAt, Node.look_eq_directory_iff]
  exact hbefore

/-- Moving the file to another place, where no directory stands. -/
theorem replaces_put (h : HasTemporary before temporary location fs content mode)
    (hchecked : checkText target.toText = .ok ()) {directory : List Text} {name : Text}
    {entries : List (Text × Node)} (hne : directory ++ [name] ≠ location)
    (hleads : fs.LeadsTo .itself target.toText (directory ++ [name]))
    (hnode : ∀ node, fs.top.at? (directory ++ [name]) = some node → node.isDirectory = false)
    (hdirectory : fs.top.at? directory = some (.directory entries)) :
    Replaces before target (directory ++ [name]) content mode
      ((fs.dropAt location).put directory name (.file content mode)) := by
  obtain ⟨entries, hdropped⟩ := h.exists_directory_dropAt hdirectory
  have hnew := Node.at?_put hdropped name (.file content mode)
  have hreplaced : ∀ node, before.top.look (directory ++ [name]) = some node →
      node.isDirectory = false := by
    rw [h.look_eq hne, Node.not_directory_look_iff]
    exact hnode
  refine ⟨h.working, h.homes, hchecked, h.leadsTo_before hleads, hreplaced,
    (Node.look_eq_some_iff rfl).2 hnew, ?_⟩
  intro other hother
  rw [← h.look_dropAt other]
  apply look_put hdropped rfl _ hother
  intro node hat
  rw [← h.look_dropAt, Node.not_directory_look_iff] at hreplaced
  exact Node.entries_eq_nil (hreplaced node hat)

/-- Replacing a node that is no directory. -/
theorem replaces_entry (h : HasTemporary before temporary location fs content mode)
    (hchecked : checkText target.toText = .ok ()) {other : List Text} {node : Node}
    (hdestination : fs.lookup .itself target.toText = .ok (.entry other node))
    (hnode : node.isDirectory = false) (hne : other ≠ location) :
    Replaces before target other content mode
      ((fs.dropAt location).putAt other (.file content mode)) := by
  have hat := lookup_entry hdestination
  have hleads : fs.LeadsTo .itself target.toText other := ⟨_, hdestination, rfl⟩
  have hfound : ∀ found, fs.top.at? other = some found → found.isDirectory = false := by
    intro found hfound
    rwa [Option.some.inj (hfound.symm.trans hat)]
  obtain ⟨directory, name, rfl⟩ := exists_eq_concat (hleads.location_ne_nil hfound)
  obtain ⟨entries, hdirectory⟩ := exists_directory_of_child hat
  rw [putAt_concat]
  exact h.replaces_put hchecked hne hleads hfound hdirectory

/-- Putting the file at a free place. -/
theorem replaces_free (h : HasTemporary before temporary location fs content mode)
    (hchecked : checkText target.toText = .ok ()) {directory : List Text} {name : Text}
    (hdestination : fs.lookup .itself target.toText = .ok (.free directory name)) :
    Replaces before target (directory ++ [name]) content mode
      ((fs.dropAt location).put directory name (.file content mode)) := by
  obtain ⟨⟨entries, hdirectory⟩, hfree⟩ := lookup_free hdestination
  have hne : directory ++ [name] ≠ location := by
    rintro rfl
    cases h.file.symm.trans hfree
  exact h.replaces_put hchecked hne ⟨_, hdestination, rfl⟩ (Node.endsAt_of_none hfree).not_directory
    hdirectory

/-- A target that leads to the temporary file itself is in place already. -/
theorem replaces_self (h : HasTemporary before temporary location fs content mode)
    (hchecked : checkText target.toText = .ok ()) (hleads : fs.LeadsTo .itself target.toText location) :
    Replaces before target location content mode fs where
  working := h.working
  homes := h.homes
  checked := hchecked
  leads := h.leadsTo_before hleads
  replaced := Node.not_directory_look_iff.2 (Node.endsAt_of_none h.free).not_directory
  file := (Node.look_eq_some_iff rfl).2 h.file
  others := fun _ hother => (h.look_eq hother).symm

theorem replace (h : HasTemporary before temporary location fs content mode)
    (hreplace : fs.replace temporary target = .ok after) :
    ∃ other, Replaces before target other content mode after := by
  simp only [FileSystem.replace, bind_eq_ok_iff, mapError_eq_ok_iff] at hreplace
  obtain ⟨_, -, _, hchecked, source, hsource, destination, hdestination, hresult⟩ := hreplace
  obtain rfl := Except.ok.inj (hsource.symm.trans (h.leadsTo.lookup_eq_entry h.file))
  split at hresult
  · cases hresult
  · cases destination with
    | free directory name =>
      obtain rfl := Except.ok.inj hresult
      exact ⟨_, h.replaces_free hchecked hdestination⟩
    | entry other node =>
      by_cases hsame : location = other
      · have hleads : fs.LeadsTo .itself target.toText location := ⟨_, hdestination, hsame.symm⟩
        cases node with
        | directory entries => cases hresult
        | _ =>
          obtain rfl := Except.ok.inj ((if_pos hsame).symm.trans hresult)
          exact ⟨_, h.replaces_self hchecked hleads⟩
      · cases node with
        | directory entries => cases hresult
        | _ =>
          obtain rfl := Except.ok.inj ((if_neg hsame).symm.trans hresult)
          exact ⟨_, h.replaces_entry hchecked hdestination rfl (Ne.symm hsame)⟩

/-- The file can be moved to a path exactly if this ends in a name and leads to a place where no directory
stands. -/
theorem exists_replace_iff (h : HasTemporary before temporary location fs content mode) :
    (∃ after, fs.replace temporary target = .ok after) ↔
      checkText target.toText = .ok () ∧ endsInName target ∧ ∃ other,
        before.LeadsTo .itself target.toText other ∧
          ∀ node, before.top.at? other = some node → node.isDirectory = false := by
  constructor
  · rintro ⟨after, hreplace⟩
    obtain ⟨other, hreplaces⟩ := h.replace hreplace
    refine ⟨hreplaces.checked, ?_, other, hreplaces.leads, Node.not_directory_look_iff.1 hreplaces.replaced⟩
    simp only [FileSystem.replace, bind_eq_ok_iff] at hreplace
    obtain ⟨_, -, _, -, _, -, _, -, hresult⟩ := hreplace
    by_contra hnot
    rw [if_pos (by simpa using hnot)] at hresult
    cases hresult
  · rintro ⟨hchecked, hend, other, hleads, hnode⟩
    have hsource := h.leadsTo.lookup_eq_entry h.file
    obtain ⟨p, hdestination, rfl⟩ := hleads.transfer h.working h.off (Node.endsAt_of_none h.free) h.not_link
    simp only [FileSystem.replace, h.checked, hchecked, hsource, hdestination, bind, Except.bind, Except.mapError,
      hend, Bool.not_true, Bool.false_eq_true, if_false]
    cases p with
    | free directory name => exact ⟨_, rfl⟩
    | entry other node =>
      have hat := lookup_entry hdestination
      by_cases hsame : location = other
      · obtain rfl := hsame
        obtain rfl := Option.some.inj (hat.symm.trans h.file)
        exact ⟨fs, if_pos rfl⟩
      · have hlook : ∀ node, fs.top.look other = some node → node.isDirectory = false := by
          rw [← h.look_eq (Ne.symm hsame), Node.not_directory_look_iff]
          exact hnode
        have hleaf := Node.not_directory_look_iff.1 hlook node hat
        cases node with
        | directory entries => cases hleaf
        | _ => exact ⟨_, if_neg hsame⟩

end HasTemporary

/-! ## Paths after a replacement -/

namespace Replaces

variable {before after : FileSystem} {path : Path} {location : List Text} {content : Bytes} {mode : Nat}

theorem agreeOff (h : Replaces before path location content mode after) :
    AgreeOff location before.top after.top :=
  fun other hother => (h.others other fun heq => hother (heq ▸ List.prefix_rfl)).symm

theorem at?_after (h : Replaces before path location content mode after) :
    after.top.at? location = some (.file content mode) :=
  (Node.look_eq_some_iff rfl).1 h.file

theorem not_link (h : Replaces before path location content mode after) (target : Text) :
    after.top.at? location ≠ some (.link target) := by
  intro hlink
  cases h.at?_after.symm.trans hlink

theorem not_directory (h : Replaces before path location content mode after) :
    ∀ node, before.top.at? location = some node → node.isDirectory = false := by
  intro node hnode
  exact Node.not_directory_look_iff.1 h.replaced node hnode

/-- Where no link has been replaced, the path leads to the file. -/
theorem leadsTo_of_not_link (h : Replaces before path location content mode after)
    (hlink : ∀ target, before.top.look location ≠ some (.link target)) :
    after.LeadsTo .itself path.toText location := by
  apply h.leads.transfer h.working h.agreeOff _ h.not_link
  intro node hnode
  have hdirectory := h.not_directory node hnode
  cases node with
  | directory entries => cases hdirectory
  | link target => exact absurd ((Node.look_eq_some_iff rfl).2 hnode) (hlink target)
  | _ => rfl

/-- The path leads to the file exactly if it led to the place whatever stood there. -/
theorem leadsTo_iff (h : Replaces before path location content mode after) :
    after.LeadsTo .itself path.toText location ↔ before.LeadsAround path location := by
  have hlocation : location ≠ [] := h.leads.location_ne_nil h.not_directory
  have hnone : (before.dropAt location).top.at? location = none := at?_dropAt hlocation
  have hoff : AgreeOff location (before.dropAt location).top after.top :=
    (agreeOff_dropAt hlocation).trans h.agreeOff
  have hworking : after.working = (before.dropAt location).working := h.working
  unfold LeadsAround
  constructor
  · intro hleads
    apply hleads.transfer hworking.symm hoff.symm (Node.endsAt_of_some h.at?_after rfl)
    intro target hlink
    cases hnone.symm.trans hlink
  · intro hleads
    exact hleads.transfer hworking hoff (Node.endsAt_of_none hnone) h.not_link

/-- A path that leads on through the replaced link breaks off at the file. -/
theorem leadsTo_or_stop (h : Replaces before path location content mode after) :
    after.LeadsTo .itself path.toText location ∨
      ∀ goal, goal ≠ .fileTarget → after.lookup goal path.toText = .error .notDirectory := by
  have hleaf : ∃ leaf : Node, after.top.at? location = some leaf ∧ leaf.isLeaf := ⟨_, h.at?_after, rfl⟩
  rcases h.leads.transfer_or_stop h.working h.agreeOff h.not_directory h.not_link (.inr ⟨rfl, hleaf⟩) with
    hleads | ⟨-, hstop⟩
  · exact .inl hleads
  · exact .inr hstop

/-- A path that leads somewhere afterwards leads to the file. -/
theorem location_eq (h : Replaces before path location content mode after) {other : List Text}
    (hleads : after.LeadsTo .itself path.toText other) : location = other := by
  rcases h.leadsTo_or_stop with hagain | hstop
  · exact hagain.location_eq hleads
  · obtain ⟨p, hp, -⟩ := hleads
    cases hp.symm.trans (hstop .itself (by decide))

theorem read (h : Replaces before path location content mode after)
    (hleads : after.LeadsTo .itself path.toText location) : after.read path = .ok content := by
  have hlocate : after.locate .target path.toText = .ok (.entry location (.file content mode)) :=
    locate_eq_ok_iff.2 ⟨h.checked, (hleads.target h.not_link).lookup_eq_entry h.at?_after⟩
  simp only [FileSystem.read, hlocate, bind, Except.bind]

theorem read_of_not_leadsTo (h : Replaces before path location content mode after)
    (hleads : ¬ after.LeadsTo .itself path.toText location) :
    after.read path = .error (.fault .notDirectory [path.toText]) := by
  have hstop := h.leadsTo_or_stop.resolve_left hleads .target (by decide)
  simp only [FileSystem.read, locate, h.checked, hstop, bind, Except.bind, Except.mapError]

/-- The content of the file can be changed through the path if this leads to it. -/
theorem write (h : Replaces before path location content mode after)
    (hleads : after.LeadsTo .itself path.toText location) (content' : Bytes) :
    ∃ changed, after.write path content' = .ok changed ∧
      Replaces before path location content' mode changed ∧
      changed.LeadsTo .itself path.toText location := by
  have hends := Node.endsAt_of_some h.at?_after rfl
  have hlocate : after.locate .target path.toText = .ok (.entry location (.file content mode)) :=
    locate_eq_ok_iff.2 ⟨h.checked, (hleads.target h.not_link).lookup_eq_entry h.at?_after⟩
  refine ⟨after.putAt location (.file content' mode), ?_, ?_⟩
  · simp only [FileSystem.write, FileSystem.changeFile, hlocate, bind, Except.bind]
  · obtain ⟨directory, name, rfl⟩ := exists_eq_concat (hleads.location_ne_nil hends.not_directory)
    obtain ⟨entries, hdirectory⟩ := exists_directory_of_child h.at?_after
    have hnew := Node.at?_put hdirectory name (.file content' mode)
    have hoff := Node.agreeOff_put directory name (.file content' mode) after.top
    rw [putAt_concat]
    refine ⟨{ h with
        working := h.working
        homes := h.homes
        file := (Node.look_eq_some_iff rfl).2 hnew
        others := fun other hother => ?_ }, ?_⟩
    · rw [← h.others other hother]
      exact look_put hdirectory rfl hends.entries_eq_nil hother
    · have hworking : (after.put directory name (.file content' mode)).working = after.working := rfl
      apply hleads.transfer hworking hoff.symm hends
      intro target hlink
      cases hnew.symm.trans hlink

end Replaces

/-! ## Files put in place -/

/-- What is seen of a file system after a file has been put at a location, perhaps together with directories
that were missing. -/
structure PutsFile (fs : FileSystem) (location : List Text) (content : Bytes) (mode : Nat)
    (after : FileSystem) : Prop where
  working : after.working = fs.working
  file : after.top.look location = some (.file content mode)
  not_directory : fs.top.look location ≠ some (.directory [])
  others : ∀ other, other ≠ location → after.top.look other = fs.top.look other ∨
    (fs.top.look other = none ∧ after.top.look other = some (.directory []))

theorem Replaces.putsFile {fs before after : FileSystem} {path part : Path} {location : List Text}
    {content : Bytes} {mode : Nat} (h : Replaces before path location content mode after)
    (hadds : AddsParents fs before part) : PutsFile fs location content mode after where
  working := h.working.trans hadds.working
  file := h.file
  not_directory := by
    intro hdirectory
    rcases hadds.look location with hsame | ⟨hnone, -⟩
    · cases h.replaced _ (hsame.trans hdirectory)
    · cases hnone.symm.trans hdirectory
  others := by
    intro other hother
    rw [h.others other hother]
    exact (hadds.look other).imp_right fun hadded => ⟨hadded.1, hadded.2.1⟩

namespace PutsFile

variable {fs after : FileSystem} {location : List Text} {content : Bytes} {mode : Nat}

theorem at?_location (h : PutsFile fs location content mode after) :
    after.top.at? location = some (.file content mode) :=
  (Node.look_eq_some_iff rfl).1 h.file

theorem not_isDirectory (h : PutsFile fs location content mode after) {node : Node}
    (hnode : fs.top.at? location = some node) : node.isDirectory = false := by
  cases node with
  | directory entries => exact absurd (Node.look_eq_directory_iff.2 ⟨entries, hnode⟩) h.not_directory
  | _ => rfl

/-- Where nothing is, there was nothing. -/
theorem at?_eq_none (h : PutsFile fs location content mode after) {other : List Text}
    (hother : after.top.at? other = none) : fs.top.at? other = none := by
  rw [← Node.look_eq_none_iff] at hother ⊢
  by_cases heq : other = location
  · rw [heq, h.file] at hother
    cases hother
  · rcases h.others other heq with hsame | ⟨hnone, -⟩
    · rw [← hsame, hother]
    · exact hnone

end PutsFile

end ModuleCatalog.FileSystem
