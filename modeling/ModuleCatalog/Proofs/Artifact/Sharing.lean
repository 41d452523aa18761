import ModuleCatalog.Proofs.Artifact.Turns
import ModuleCatalog.Proofs.Text.Utf8

/-!
# What is seen of a shared target

A file that was seen through a target at first is seen until a whole artifact is. A file that is seen is a
whole artifact or was there at first, where the target now leads; it may also be a temporary file if the
target is a link that led to the free name of that file. Cleaning up takes away the file of the call itself.
-/

namespace ModuleCatalog.Artifact

open FileSystem

variable {initial fs : FileSystem} {target : Path} {IsStored : Bytes → Prop} {node : Node}

/-! ## Looks at a path -/

theorem status_eq_ok_iff {path : Text} :
    fs.status path = .ok node ↔
      checkText path = .ok () ∧ ∃ location, fs.lookup .target path = .ok (.entry location node) := by
  simp only [status, bind_eq_ok_iff, locate_eq_ok_iff]
  constructor
  · rintro ⟨p, ⟨hcheck, hp⟩, hresult⟩
    cases p with
    | entry location found =>
      obtain rfl := Except.ok.inj hresult
      exact ⟨hcheck, location, hp⟩
    | free directory name => cases hresult
  · rintro ⟨hcheck, location, hp⟩
    exact ⟨_, ⟨hcheck, hp⟩, rfl⟩

theorem status_of_leadsTo {path : Text} {location : List Text} (hcheck : checkText path = .ok ())
    (h : fs.LeadsTo .target path location) (hat : fs.top.at? location = some node) :
    fs.status path = .ok node :=
  status_eq_ok_iff.2 ⟨hcheck, location, h.lookup_eq_entry hat⟩

theorem status_of_leadsTo_itself {path : Text} {location : List Text} (hcheck : checkText path = .ok ())
    (h : fs.LeadsTo .itself path location) (hat : fs.top.at? location = some node) (hleaf : node.isLeaf) :
    fs.status path = .ok node := by
  apply status_of_leadsTo hcheck (h.target _) hat
  intro link hlink
  cases Option.some.inj (hat.symm.trans hlink) ▸ hleaf

/-- Where a path that leads to something leads if a link at its end is not followed. -/
theorem exists_itself_of_target {path : Text} {location : List Text}
    (h : fs.lookup .target path = .ok (.entry location node)) :
    fs.LeadsTo .itself path location ∨
      ∃ place link, fs.LeadsTo .itself path place ∧ fs.top.at? place = some (.link link) := by
  obtain ⟨hempty, hlong, hwalk⟩ := lookup_eq_ok_iff.1 h
  rcases hwalk.itself_of_target with hitself | ⟨directory, name, link, _, hitself, -⟩
  · exact .inl ⟨_, lookup_eq_ok_iff.2 ⟨hempty, hlong, hitself⟩, rfl⟩
  · exact .inr ⟨_, link, ⟨_, lookup_eq_ok_iff.2 ⟨hempty, hlong, hitself⟩, rfl⟩, hitself.stands⟩

/-! ## Looks at a shared target -/

namespace Shared

/-- Only what stands where the target leads may have replaced a link. -/
theorem location_eq_of_replacesLink (h : Shared initial target IsStored fs) {location other : List Text}
    (hleads : initial.LeadsTo .itself target.toText location) (hlink : Later.ReplacesLink initial fs other) :
    other = location := by
  obtain ⟨⟨link, hbefore⟩, leaf, hafter, hleaf⟩ := hlink
  have hbefore' := (Node.look_eq_some_iff rfl).2 hbefore
  have hafter' := (Later.look_leaf_iff hleaf).2 hafter
  cases h.seen other with
  | same hsame =>
    rw [hafter', hbefore'] at hsame
    cases Option.some.inj hsame ▸ hleaf
  | directory hfree | temporary hfree => cases hbefore'.symm.trans hfree
  | stored hearlier _ hother => exact hearlier.location_eq hleads hother

/-- A target through which something is seen at first that no path leads on through keeps leading where it
led. -/
theorem leadsTo_itself (h : Shared initial target IsStored fs) {location place : List Text}
    (hlookup : initial.lookup .target target.toText = .ok (.entry location node)) (hleaf : node.isLeaf)
    (hleads : initial.LeadsTo .itself target.toText place) : fs.LeadsTo .itself target.toText place := by
  apply (hleads.keeps h.later.working h.later.keeps (.inl rfl)).resolve_right
  rintro ⟨⟨p, hp, rfl, links, here, name, names, link, hnames, hreplaced, hat, hwalk⟩, -⟩
  have hend := h.location_eq_of_replacesLink hleads hreplaced
  exact (lookup_eq_ok_iff.1 hlookup).2.2.not_breaksOff hleaf (lookup_eq_ok_iff.1 hp).2.2
    ⟨links, here, name, names, link, hnames, hend, hat, hwalk⟩

/-- What is seen through a target at first is seen until an artifact is. -/
theorem status_of_initial (h : Shared initial target IsStored fs)
    (hstatus : initial.status target.toText = .ok node) (hleaf : node.isLeaf) :
    fs.status target.toText = .ok node ∨
      ∃ bytes, IsStored bytes ∧ fs.status target.toText = .ok (.file bytes mode) := by
  obtain ⟨hcheck, location, hlookup⟩ := status_eq_ok_iff.1 hstatus
  have hinitial := (Later.look_leaf_iff hleaf).2 (lookup_entry hlookup)
  have hstored : ∀ {place bytes}, fs.LeadsTo .itself target.toText place →
      fs.top.look place = some (.file bytes mode) →
        fs.status target.toText = .ok (.file bytes mode) := fun hleads hlook =>
    status_of_leadsTo_itself hcheck hleads ((Node.look_eq_some_iff rfl).1 hlook) rfl
  rcases exists_itself_of_target hlookup with hleads | ⟨place, link, hleads, hlink⟩
  · have hnow := h.leadsTo_itself hlookup hleaf hleads
    cases h.seen location with
    | same hsame =>
      have hat := (Later.look_leaf_iff hleaf).1 (hsame.trans hinitial)
      exact .inl (status_of_leadsTo_itself hcheck hnow hat hleaf)
    | directory hfree | temporary hfree => cases hinitial.symm.trans hfree
    | stored _ _ _ hbytes hlook => exact .inr ⟨_, hbytes, hstored hnow hlook⟩
  · have hnow := h.leadsTo_itself hlookup hleaf hleads
    have hbefore := (Node.look_eq_some_iff rfl).2 hlink
    cases h.seen place with
    | stored _ _ _ hbytes hlook => exact .inr ⟨_, hbytes, hstored hnow hlook⟩
    | directory hfree | temporary hfree => cases hbefore.symm.trans hfree
    | same hsame =>
      -- The link at the end of the target is still there, so no link has been replaced at all.
      have hnone : ∀ other, ¬ Later.ReplacesLink initial fs other := by
        intro other hreplaced
        obtain rfl := h.location_eq_of_replacesLink hleads hreplaced
        obtain ⟨-, leaf, hafter, hleaf⟩ := hreplaced
        rw [hbefore, (Later.look_leaf_iff hleaf).2 hafter] at hsame
        cases Option.some.inj hsame ▸ hleaf
      have htarget : fs.LeadsTo .target target.toText location := by
        have hbegins : initial.LeadsTo .target target.toText location := ⟨_, hlookup, rfl⟩
        apply (hbegins.keeps h.later.working h.later.keeps (.inr hnone)).resolve_right
        rintro ⟨⟨_, -, -, _, _, _, _, _, _, hreplaced, -⟩, -⟩
        exact hnone _ hreplaced
      cases h.seen location with
      | same hsame =>
        have hat := (Later.look_leaf_iff hleaf).1 (hsame.trans hinitial)
        exact .inl (status_of_leadsTo hcheck htarget hat)
      | directory hfree | temporary hfree => cases hinitial.symm.trans hfree
      | stored hearlier _ hother =>
        obtain rfl := hearlier.location_eq hleads hother
        cases Option.some.inj (hinitial.symm.trans hbefore) ▸ hleaf

/-- What is seen through a target that no path leads on through. -/
theorem seen_of_status (h : Shared initial target IsStored fs)
    (hstatus : fs.status target.toText = .ok node) (hleaf : node.isLeaf) :
    (∃ bytes, IsStored bytes ∧ node = .file bytes mode) ∨
      (∃ location, fs.LeadsTo .target target.toText location ∧
        initial.top.at? location = some node) ∨
      ∃ location link place, fs.LeadsTo .itself target.toText location ∧
        initial.top.at? location = some (.link link) ∧ fs.LeadsTo .target target.toText place ∧
        initial.top.at? place = none := by
  obtain ⟨-, location, hlookup⟩ := status_eq_ok_iff.1 hstatus
  have hat := lookup_entry hlookup
  have hlook := (Later.look_leaf_iff hleaf).2 hat
  have hleads : fs.LeadsTo .target target.toText location := ⟨_, hlookup, rfl⟩
  cases h.seen location with
  | same hsame =>
    exact .inr (.inl ⟨location, hleads, (Later.look_leaf_iff hleaf).1 (hsame.symm.trans hlook)⟩)
  | directory _ hdirectory => cases Option.some.inj (hlook.symm.trans hdirectory) ▸ hleaf
  | stored _ _ _ hbytes hstored =>
    exact .inl ⟨_, hbytes, Option.some.inj (hlook.symm.trans hstored)⟩
  | temporary hfree hbeside =>
    rcases exists_itself_of_target hlookup with hitself | ⟨place, link, hitself, hlink⟩
    · refine absurd hbeside (not_isBeside_of_leadsTo hitself fun other hother => ?_)
      rw [← Option.some.inj (hat.symm.trans hother)]
      exact Node.isDirectory_of_isLeaf hleaf
    · have hinitial := (h.seen place).initial_eq_link ((Node.look_eq_some_iff rfl).2 hlink)
      exact .inr (.inr ⟨place, link, location, hitself, (Node.look_eq_some_iff rfl).1 hinitial, hleads,
        Node.look_eq_none_iff.1 hfree⟩)

end Shared

/-! ## Cleaning up -/

namespace Calls

variable {s : Calls} {places : Nat → List Text}

/-- A call that cleans up changes nothing but its own temporary file. -/
theorem Sound.look_take_of_cleaning (h : Sound initial target IsStored s places) {turn : Turn} {c : Call}
    {temporary : Path} {failure : Failure} (hc : s.calls[turn.call]? = some c)
    (hphase : c.phase = .cleaning temporary failure) {location : List Text}
    (hlocation : location ≠ places turn.call) :
    (s.take turn).fs.top.look location = s.fs.top.look location := by
  have hstep : (c.stepFrom turn.firstName turn.refusal s.fs).2 =
      (s.fs.remove temporary).toOption.getD s.fs := by
    cases hrefusal : turn.refusal with
    | none => simp only [Call.stepFrom, hphase, Call.step, Call.answer]
    | some refusal => simp only [Call.stepFrom, hphase, Call.step, Call.refuse, Call.answer]
  rw [take_eq hc]
  dsimp only
  rw [hstep]
  obtain ⟨content, permissions, howns⟩ := h.owns hc (by rw [hphase]; rfl)
  rcases howns.hasTemporary_or_stop with htemporary | hstop
  · rw [htemporary.remove]
    exact htemporary.look_eq hlocation
  · have hlocate : s.fs.locate .itself temporary.toText = _ := howns.locate_of_stop hstop (by decide)
    simp only [remove, hlocate, bind, Except.bind]
    rfl

/-- However calls with one target take turns, answered or refused, and wherever they stop: A file that was
seen through the target at first is seen until an artifact of one of them is. Whatever file is seen is such an
artifact, or it stood at first where the target now leads, or the target is a link from the beginning and led
to a place where nothing stood. And every call that has a temporary file has it at a place of its own, to which
the target does not lead and no path of another call, and changes nothing else when it cleans up. -/
theorem run_spec (initial : FileSystem) (target : Path) (requests : List (Manifest × Int))
    (turns : List Turn) :
    let s := (start initial target requests).run turns
    (∀ node, initial.status target.toText = .ok node → node.isLeaf →
      s.fs.status target.toText = .ok node ∨
        ∃ bytes, IsArtifactOf requests bytes ∧ s.fs.status target.toText = .ok (.file bytes 0o644)) ∧
    (∀ node, s.fs.status target.toText = .ok node → node.isLeaf →
      (∃ bytes, IsArtifactOf requests bytes ∧ node = .file bytes 0o644) ∨
        (∃ location, s.fs.LeadsTo .target target.toText location ∧
          initial.top.at? location = some node) ∨
        ∃ location link place, s.fs.LeadsTo .itself target.toText location ∧
          initial.top.at? location = some (.link link) ∧
          s.fs.LeadsTo .target target.toText place ∧ initial.top.at? place = none) ∧
    ∃ places : Nat → List Text,
      (∀ i c temporary, s.calls[i]? = some c → c.phase.temporary? = some temporary →
        initial.top.at? (places i) = none ∧
        (∃ content permissions, s.fs.top.at? (places i) = some (.file content permissions)) ∧
        ¬ s.fs.LeadsTo .itself target.toText (places i) ∧
        ∀ location, s.fs.LeadsTo .itself temporary.toText location → location = places i) ∧
      (∀ i j c d, s.calls[i]? = some c → s.calls[j]? = some d → c.phase.temporary? ≠ none →
        d.phase.temporary? ≠ none → places i = places j → i = j) ∧
      ∀ turn c temporary failure, s.calls[turn.call]? = some c →
        c.phase = .cleaning temporary failure → ∀ location, location ≠ places turn.call →
          (s.take turn).fs.top.look location = s.fs.top.look location := by
  intro s
  obtain ⟨places, hsound⟩ := exists_sound_run (sound_start initial target requests) turns
  refine ⟨fun node hnode hleaf => hsound.shared.status_of_initial hnode hleaf,
    fun node hnode hleaf => hsound.shared.seen_of_status hnode hleaf, places, ?_, ?_, ?_⟩
  · intro i c temporary hc htemporary
    obtain ⟨content, permissions, howns⟩ := hsound.owns hc htemporary
    obtain ⟨earlier, hearlier, hled⟩ := howns.led
    refine ⟨Node.look_eq_none_iff.1 howns.free, ⟨content, permissions, howns.at?⟩, fun hleads => ?_, ?_⟩
    · exact not_isBeside_of_leadsTo hleads howns.endsAt.not_directory howns.beside
    · exact fun location hleads => hearlier.location_eq hled hleads
  · exact fun i j c d => hsound.apart
  · exact fun turn c temporary failure hc hphase location => hsound.look_take_of_cleaning hc hphase

/-! ## Files that come into sight -/

/-- A file with nothing in it. -/
def emptyFile : FileSystem := ⟨.directory [("m", .file [] 0o600)], [], ⟨none, []⟩⟩

/-- A link to the name that the first temporary file for it gets. -/
def danglingLink : FileSystem := ⟨.directory [("m", .link ".m.aaaaaaaa.tmp")], [], ⟨none, []⟩⟩

/-- A reader may come to see a file that is no artifact where it saw none: a file that stood there before the
directory on the way to it was made, and a temporary file to whose name the target is a link. -/
theorem not_isArtifactOf_emptyFile :
    ¬ IsArtifactOf [(default, 70)] [] ∧
    (emptyFile.status "x/../m" = .error (.fault .notFound ["x/../m"]) ∧
      ((start emptyFile "x/../m" [(default, 70)]).run [⟨0, none, 0⟩]).fs.status "x/../m" =
        .ok (.file [] 0o600)) ∧
    danglingLink.status "m" = .error (.fault .notFound ["m"]) ∧
      ((start danglingLink "m" [(default, 70)]).run [⟨0, none, 0⟩, ⟨0, none, 0⟩]).fs.status "m" =
        .ok (.file [] 0o600) := by
  refine ⟨?_, ⟨by cbv, by cbv⟩, by cbv, by cbv⟩
  rintro ⟨request, hrequest, text, hencode, hbytes⟩
  obtain rfl := List.mem_singleton.1 hrequest
  obtain rfl : [] = text := Except.ok.inj (Utf8.decode_eq_of_encode_eq hbytes)
  rw [encode_of_le (by decide)] at hencode
  exact List.append_ne_nil_of_right_ne_nil _ (by decide) (Except.ok.inj hencode)

end Calls

end ModuleCatalog.Artifact
