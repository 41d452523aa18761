import Mathlib
import ModuleCatalog.Artifact.Store
import ModuleCatalog.Proofs.FileSystem.NulCharacter
import ModuleCatalog.Proofs.FileSystem.Replacement

/-!
# Storing is all or nothing

Whatever requests are refused, a call that fails leaves every file and link as it was and no new one behind,
and a call that succeeds changes what stands at one place, where the target leads. The invariant of a call
says what is there between two of its requests: an untouched tree with perhaps some new directories, and
beside it one temporary file.
-/

namespace ModuleCatalog.Artifact

open FileSystem

/-- The failures of storing: a fault of some request, a text or path that cannot be encoded, and a path with
a null character. -/
def IsWriteFailure (fs : FileSystem) (target : Path) (failure : Failure) : Prop :=
  (∃ fault paths, failure = .artifact target (.unwritable (.fault fault paths))) ∨
    (∃ cause, failure = .artifact target (.unencodable cause)) ∨
    (failure = .files .nulCharacter ∧ (HasNul fs.workingPath ∨ HasNul target))

/-- What a call that has ended has done to a file system. -/
def Outcome (initial : FileSystem) (target : Path) (text : Text) (fs : FileSystem) :
    Except Failure Unit → Prop
  | .error failure => IsWriteFailure initial target failure ∧ AddsParents initial fs target.parent
  | .ok () => ∃ before bytes location, Utf8.encode text = .ok bytes ∧
      AddsParents initial before target.parent ∧ Replaces before target location bytes mode fs

namespace Call

/-- Whether all that a call has done so far is to add parents of its target and a temporary file. -/
def IsWriting (initial : FileSystem) (target temporary : Path) (fs : FileSystem) (content : Bytes)
    (mode : Nat) : Prop :=
  ∃ before location, AddsParents initial before target.parent ∧
    HasTemporary before temporary location fs content mode

/-- What is there before the next request of a call. -/
def Sound (initial : FileSystem) (c : Call) (fs : FileSystem) : Prop :=
  match c.phase with
  | .preparing => fs = initial
  | .creating => AddsParents initial fs c.target.parent
  | .writing temporary => IsWriting initial c.target temporary fs [] 0o600
  | .syncing temporary | .permitting temporary =>
    ∃ bytes, Utf8.encode c.text = .ok bytes ∧ IsWriting initial c.target temporary fs bytes 0o600
  | .replacing temporary =>
    ∃ bytes, Utf8.encode c.text = .ok bytes ∧ IsWriting initial c.target temporary fs bytes mode
  | .cleaning temporary failure =>
    IsWriteFailure initial c.target failure ∧
      ∃ content mode, IsWriting initial c.target temporary fs content mode
  | .finished outcome => Outcome initial c.target c.text fs outcome

/-! ## Failures -/

theorem isWriteFailure_failure {initial : FileSystem} (c : Call) {cause : FileSystem.Error}
    (hnul : cause = .nulCharacter → HasNul initial.workingPath ∨ HasNul c.target) :
    IsWriteFailure initial c.target (c.failure cause) := by
  cases cause with
  | fault fault paths => exact .inl ⟨fault, paths, rfl⟩
  | nulCharacter => exact .inr (.inr ⟨rfl, hnul rfl⟩)
  | unencodable error => exact .inr (.inl ⟨error, rfl⟩)

theorem isWriteFailure_fault (initial : FileSystem) (c : Call) (fault : Fault) (paths : List Text) :
    IsWriteFailure initial c.target (c.failure (.fault fault paths)) :=
  .inl ⟨fault, paths, rfl⟩

/-! ## Cleaning up -/

theorem addsParents_dropAt {initial before fs : FileSystem} {path temporary : Path} {location : List Text}
    {content : Bytes} {mode : Nat} (h : AddsParents initial before path)
    (htemporary : HasTemporary before temporary location fs content mode) :
    AddsParents initial (fs.dropAt location) path := by
  have hworking : (fs.dropAt location).working = before.working := htemporary.working
  refine ⟨hworking.trans h.working, htemporary.homes.trans h.homes, fun other => ?_⟩
  rw [htemporary.look_dropAt]
  rcases h.look other with hsame | ⟨hnone, hadded, count, hleads⟩
  · exact .inl hsame
  · refine .inr ⟨hnone, hadded, count, ?_⟩
    have hoff : Node.AgreeOff location before.top (fs.dropAt location).top :=
      fun other _ => (htemporary.look_dropAt other).symm
    apply hleads.transfer hworking hoff (Node.endsAt_of_none htemporary.free)
    intro target hlink
    have hlook := htemporary.look_dropAt location
    rw [(Node.look_eq_some_iff rfl).2 hlink, Node.look_eq_none_iff.2 htemporary.free] at hlook
    cases hlook

/-! ## One request -/

theorem sound_preparing {initial : FileSystem} {c : Call} (hphase : c.phase = .preparing) :
    Sound initial (c.answer initial).1 (c.answer initial).2 := by
  have hadds := addsParents_ensureDirectories initial c.target.parent c.target.parent.parts.length
  rw [upTo_length] at hadds
  simp only [answer, hphase]
  cases hmake : initial.ensureDirectories c.target.parent with
  | mk after result =>
    rw [hmake] at hadds
    cases result with
    | ok => exact hadds
    | error cause =>
      refine ⟨isWriteFailure_failure c fun hnul => .inr (HasNul.of_parent ?_), hadds⟩
      have hmake' : (initial.ensureDirectories c.target.parent).2 = .error .nulCharacter := by
        rw [hmake, hnul]
      exact HasNul.of_ensureDirectories hmake'

theorem sound_creating {initial fs : FileSystem} {c : Call} (hphase : c.phase = .creating)
    (h : AddsParents initial fs c.target.parent) : Sound initial (c.answer fs).1 (c.answer fs).2 := by
  simp only [answer, hphase]
  cases hcreate : fs.createTemporary c.target with
  | ok result =>
    obtain ⟨temporary, after⟩ := result
    obtain ⟨location, htemporary⟩ := createFrom_eq_ok hcreate
    exact ⟨fs, location, h, htemporary⟩
  | error cause =>
    refine ⟨isWriteFailure_failure c fun hnul => ?_, h⟩
    have hworking : fs.workingPath = initial.workingPath := by rw [workingPath, h.working, workingPath]
    rw [← hworking]
    exact HasNul.of_createTemporary (hnul ▸ hcreate)

theorem sound_writing {initial fs : FileSystem} {c : Call} {temporary : Path}
    (hphase : c.phase = .writing temporary) (h : IsWriting initial c.target temporary fs [] 0o600) :
    Sound initial (c.answer fs).1 (c.answer fs).2 := by
  simp only [answer, hphase]
  obtain ⟨before, location, hadds, htemporary⟩ := h
  cases hencode : Utf8.encode c.text with
  | error cause =>
    have hresult : c.writeText fs temporary = .error (.artifact c.target (.unencodable cause)) := by
      simp only [writeText, hencode]
      rfl
    rw [hresult]
    exact ⟨.inr (.inl ⟨cause, rfl⟩), [], 0o600, before, location, hadds, htemporary⟩
  | ok bytes =>
    obtain ⟨after, hwrite, hafter⟩ := htemporary.write bytes
    have hresult : c.writeText fs temporary = .ok after := by
      calc c.writeText fs temporary
          = (fs.write temporary bytes).mapError c.failure := by simp only [writeText, hencode]; rfl
        _ = .ok after := by rw [hwrite]; rfl
    rw [hresult]
    exact ⟨bytes, hencode, before, location, hadds, hafter⟩

theorem sound_permitting {initial fs : FileSystem} {c : Call} {temporary : Path} {bytes : Bytes}
    (hphase : c.phase = .permitting temporary) (hencode : Utf8.encode c.text = .ok bytes)
    (h : IsWriting initial c.target temporary fs bytes 0o600) :
    Sound initial (c.answer fs).1 (c.answer fs).2 := by
  simp only [answer, hphase]
  obtain ⟨before, location, hadds, htemporary⟩ := h
  obtain ⟨after, hpermit, hafter⟩ := htemporary.permit mode
  rw [hpermit]
  exact ⟨bytes, hencode, before, location, hadds, hafter⟩

theorem sound_replacing {initial fs : FileSystem} {c : Call} {temporary : Path} {bytes : Bytes}
    (hphase : c.phase = .replacing temporary) (hencode : Utf8.encode c.text = .ok bytes)
    (h : IsWriting initial c.target temporary fs bytes mode) :
    Sound initial (c.answer fs).1 (c.answer fs).2 := by
  simp only [answer, hphase]
  obtain ⟨before, location, hadds, htemporary⟩ := h
  cases hreplace : fs.replace temporary c.target with
  | ok after =>
    obtain ⟨other, hreplaces⟩ := htemporary.replace hreplace
    exact ⟨before, bytes, other, hencode, hadds, hreplaces⟩
  | error cause =>
    refine ⟨isWriteFailure_failure c fun hnul => .inr ?_, bytes, mode, before, location, hadds, htemporary⟩
    exact HasNul.of_replace htemporary.checked (hnul ▸ hreplace)

theorem sound_cleaning {initial fs : FileSystem} {c : Call} {temporary : Path} {failure : Failure}
    {content : Bytes} {mode : Nat} (hphase : c.phase = .cleaning temporary failure)
    (hfailure : IsWriteFailure initial c.target failure)
    (h : IsWriting initial c.target temporary fs content mode) :
    Sound initial (c.answer fs).1 (c.answer fs).2 := by
  simp only [answer, hphase]
  obtain ⟨before, location, hadds, htemporary⟩ := h
  rw [htemporary.remove]
  exact ⟨hfailure, addsParents_dropAt hadds htemporary⟩

theorem sound_answer {initial fs : FileSystem} {c : Call} (h : Sound initial c fs) :
    Sound initial (c.answer fs).1 (c.answer fs).2 := by
  unfold Sound at h
  split at h
  · next hphase => exact h ▸ sound_preparing hphase
  · next hphase => exact sound_creating hphase h
  · next hphase => exact sound_writing hphase h
  · next hphase =>
    simp only [answer, hphase]
    exact h
  · next hphase =>
    obtain ⟨bytes, hencode, hwriting⟩ := h
    exact sound_permitting hphase hencode hwriting
  · next hphase =>
    obtain ⟨bytes, hencode, hwriting⟩ := h
    exact sound_replacing hphase hencode hwriting
  · next hphase =>
    obtain ⟨hfailure, content, mode, hwriting⟩ := h
    exact sound_cleaning hphase hfailure hwriting
  · next hphase =>
    simp only [answer, hphase]
    simpa only [Sound, hphase] using h

/-! ## A refused request -/

theorem isWriting_attempt {initial fs : FileSystem} {c : Call} {temporary : Path} (progress : Nat)
    (hphase : c.phase = .writing temporary) (h : IsWriting initial c.target temporary fs [] 0o600) :
    ∃ content, IsWriting initial c.target temporary (c.attempt progress fs) content 0o600 := by
  simp only [attempt, hphase]
  obtain ⟨before, location, hadds, htemporary⟩ := h
  cases hencode : Utf8.encode c.text with
  | error cause => exact ⟨[], before, location, hadds, htemporary⟩
  | ok bytes =>
    obtain ⟨after, hwrite, hafter⟩ := htemporary.write (bytes.take progress)
    simp only [hwrite]
    exact ⟨bytes.take progress, before, location, hadds, hafter⟩

theorem sound_refuse {initial fs : FileSystem} {c : Call} (refusal : Refusal) (h : Sound initial c fs) :
    Sound initial (c.refuse refusal fs).1 (c.refuse refusal fs).2 := by
  have hanswer := sound_answer h
  have hfailure := isWriteFailure_fault initial c refusal.fault []
  unfold Sound at h
  split at h
  · next hphase =>
    simp only [refuse, hphase, attempt]
    exact ⟨hfailure, h ▸ addsParents_ensureDirectories fs c.target.parent refusal.progress⟩
  · next hphase =>
    simp only [refuse, hphase, attempt]
    exact ⟨hfailure, h⟩
  · next temporary hphase =>
    obtain ⟨content, hwriting⟩ := isWriting_attempt refusal.progress hphase h
    simp only [refuse, hphase]
    exact ⟨hfailure, content, 0o600, hwriting⟩
  · next hphase =>
    obtain ⟨bytes, -, hwriting⟩ := h
    simp only [refuse, hphase, attempt]
    exact ⟨hfailure, bytes, 0o600, hwriting⟩
  · next hphase =>
    obtain ⟨bytes, -, hwriting⟩ := h
    simp only [refuse, hphase, attempt]
    exact ⟨hfailure, bytes, 0o600, hwriting⟩
  · next hphase =>
    obtain ⟨bytes, -, hwriting⟩ := h
    simp only [refuse, hphase, attempt]
    exact ⟨hfailure, bytes, mode, hwriting⟩
  · next hphase =>
    simp only [refuse, hphase]
    exact hanswer
  · next hphase =>
    simp only [refuse, hphase]
    exact hanswer

theorem sound_step {initial fs : FileSystem} {c : Call} (refusal : Option Refusal)
    (h : Sound initial c fs) : Sound initial (c.step refusal fs).1 (c.step refusal fs).2 := by
  cases refusal with
  | none => exact sound_answer h
  | some refusal => exact sound_refuse refusal h

/-! ## Whole calls -/

theorem target_text_proceed (c : Call) (temporary : Path) (next : Phase) (fs : FileSystem)
    (result : Except Failure FileSystem) :
    (c.proceed temporary next fs result).1.target = c.target ∧
      (c.proceed temporary next fs result).1.text = c.text := by
  cases result <;> exact ⟨rfl, rfl⟩

theorem target_text_answer (c : Call) (fs : FileSystem) :
    (c.answer fs).1.target = c.target ∧ (c.answer fs).1.text = c.text := by
  unfold answer
  split
  · split <;> exact ⟨rfl, rfl⟩
  · split <;> exact ⟨rfl, rfl⟩
  · exact target_text_proceed ..
  · exact ⟨rfl, rfl⟩
  · exact target_text_proceed ..
  · exact target_text_proceed ..
  · exact ⟨rfl, rfl⟩
  · exact ⟨rfl, rfl⟩

theorem target_text_step (c : Call) (refusal : Option Refusal) (fs : FileSystem) :
    (c.step refusal fs).1.target = c.target ∧ (c.step refusal fs).1.text = c.text := by
  cases refusal with
  | none => exact target_text_answer c fs
  | some refusal =>
    rw [step]
    unfold refuse
    split
    · exact ⟨rfl, rfl⟩
    · exact ⟨rfl, rfl⟩
    · exact ⟨rfl, rfl⟩
    · exact ⟨rfl, rfl⟩
    · exact ⟨rfl, rfl⟩
    · exact ⟨rfl, rfl⟩
    · exact target_text_answer c fs
    · exact target_text_answer c fs

theorem phase_eq_finished {phase : Phase} {outcome : Except Failure Unit}
    (h : phase.outcome? = some outcome) : phase = .finished outcome := by
  cases phase with
  | finished other => exact congrArg Phase.finished (Option.some.inj h)
  | _ => cases h

theorem outcome_complete {initial fs : FileSystem} {c : Call} (refusals : List (Option Refusal))
    (h : Sound initial c fs) :
    Outcome initial c.target c.text (c.complete refusals fs).1 (c.complete refusals fs).2 := by
  fun_induction c.complete refusals fs with
  | case1 c refusals fs outcome houtcome =>
    simpa only [Sound, phase_eq_finished houtcome] using h
  | case2 c refusals fs houtcome next ih =>
    obtain ⟨htarget, htext⟩ := target_text_step c (refusals.headD none) fs
    have hnext := ih (sound_step (refusals.headD none) h)
    rwa [htarget, htext] at hnext

end Call

/-! ## Storing -/

theorem storeWith_of_lt (refusals : List (Option Refusal)) (fs : FileSystem) (m : Manifest) (target : Path)
    {chunkSize : Int} (h : chunkSize < 1) :
    storeWith refusals fs m target chunkSize = (fs, .error (.chunks .chunkSizeNotPositive)) := by
  simp only [storeWith, Call.start, encode_of_lt h m]

theorem outcome_storeWith (refusals : List (Option Refusal)) (fs : FileSystem) (m : Manifest)
    (target : Path) {chunkSize : Int} {text : Text} (hencode : encode m chunkSize = .ok text) :
    Outcome fs target text (storeWith refusals fs m target chunkSize).1
      (storeWith refusals fs m target chunkSize).2 := by
  simp only [storeWith, Call.start, hencode]
  have hsound : Call.Sound fs ⟨target, text, .preparing⟩ fs := rfl
  exact Call.outcome_complete refusals hsound

/-- A call that fails has added directories at most. -/
theorem addsParents_of_error {refusals : List (Option Refusal)} {fs : FileSystem} {m : Manifest} {target : Path}
    {chunkSize : Int} {failure : Failure} (h : (storeWith refusals fs m target chunkSize).2 = .error failure) :
    AddsParents fs (storeWith refusals fs m target chunkSize).1 target.parent := by
  by_cases hsize : chunkSize < 1
  · rw [storeWith_of_lt refusals fs m target hsize]
    exact .refl fs target.parent
  · have houtcome := outcome_storeWith refusals fs m target (encode_of_le (Int.not_lt.1 hsize) m)
    rw [h] at houtcome
    exact houtcome.2

/-- Storing either fails and leaves every file and link as it was, or puts the artifact where the target
leads and changes nothing else. Directories may have been added for the parts of the target's parent. The
target leads to the artifact afterwards exactly if it does not lead on through a link that was replaced. -/
theorem storeWith_spec (refusals : List (Option Refusal)) (fs : FileSystem) (m : Manifest) (target : Path)
    (chunkSize : Int) :
    match storeWith refusals fs m target chunkSize with
    | (after, .error failure) =>
      AddsParents fs after target.parent ∧
        ((chunkSize < 1 ∧ failure = .chunks .chunkSizeNotPositive ∧ after = fs) ∨
          (1 ≤ chunkSize ∧ IsWriteFailure fs target failure))
    | (after, .ok ()) =>
      ∃ text bytes before location, encode m chunkSize = .ok text ∧ Utf8.encode text = .ok bytes ∧
        AddsParents fs before target.parent ∧ Replaces before target location bytes 0o644 after ∧
        (after.LeadsTo .itself target.toText location ↔ before.LeadsAround target location) ∧
        ((∀ link, before.top.look location ≠ some (.link link)) →
          after.LeadsTo .itself target.toText location) := by
  by_cases hsize : chunkSize < 1
  · rw [storeWith_of_lt refusals fs m target hsize]
    exact ⟨.refl fs target.parent, .inl ⟨hsize, rfl, rfl⟩⟩
  · have hencode := encode_of_le (Int.not_lt.1 hsize) m
    have houtcome := outcome_storeWith refusals fs m target hencode
    cases hresult : storeWith refusals fs m target chunkSize with
    | mk after result =>
      rw [hresult] at houtcome
      cases result with
      | error failure => exact ⟨houtcome.2, .inr ⟨Int.not_lt.1 hsize, houtcome.1⟩⟩
      | ok =>
        obtain ⟨before, bytes, location, hbytes, hadds, hreplaces⟩ := houtcome
        exact ⟨_, bytes, before, location, hencode, hbytes, hadds, hreplaces, hreplaces.leadsTo_iff,
          hreplaces.leadsTo_of_not_link⟩

/-- A directory whose only entry is a link to it. -/
def selfLink : FileSystem := ⟨.directory [("d", .link ".")], [], ⟨none, []⟩⟩

theorem not_leadsTo_selfLink : (storeWith [] selfLink default "d/d" defaultChunkSize).2 = .ok () ∧
    (storeWith [] selfLink default "d/d" defaultChunkSize).1.lookup .itself "d/d" =
      .error .notDirectory :=
  ⟨by cbv, by cbv⟩

end ModuleCatalog.Artifact
