import ModuleCatalog.Proofs.Json.LineEnds
import ModuleCatalog.Proofs.Text.Utf8

/-!
# Rewritten line ends

A line feed may be rewritten as a carriage return, with or without a line feed behind it, and not every
line in the same way. Reading the line ends undoes this, because no rewritten text begins with a line feed.
In UTF-8 the two characters are bytes of their own and part of no other character, so rewriting the bytes
of a text is rewriting the text.
-/

namespace ModuleCatalog

/-- Whether every line feed of a sequence has been rewritten in another one as a carriage return, with or
without a line feed behind it. -/
inductive LineEndsRewritten {α : Type} (lf cr : α) : List α → List α → Prop
  | nil : LineEndsRewritten lf cr [] []
  | both {s t} (h : LineEndsRewritten lf cr s t) : LineEndsRewritten lf cr (lf :: s) (cr :: lf :: t)
  | alone {s t} (h : LineEndsRewritten lf cr s t) : LineEndsRewritten lf cr (lf :: s) (cr :: t)
  | keep {c s t} (hc : c ≠ lf) (h : LineEndsRewritten lf cr s t) :
      LineEndsRewritten lf cr (c :: s) (c :: t)

namespace LineEndsRewritten

section Sequences

variable {α : Type} {lf cr : α} {s t u : List α}

theorem head?_ne (hne : cr ≠ lf) (h : LineEndsRewritten lf cr s t) : t.head? ≠ some lf := by
  intro hhead
  cases h with
  | nil => cases hhead
  | both h => exact hne (Option.some.inj hhead)
  | alone h => exact hne (Option.some.inj hhead)
  | keep hc h => exact hc (Option.some.inj hhead)

/-- Every line feed may be rewritten in the same way. -/
theorem of_flatMap [DecidableEq α] {ending : List α} (h : ending = [cr] ∨ ending = [cr, lf])
    (s : List α) : LineEndsRewritten lf cr s (s.flatMap fun c => if c = lf then ending else [c]) := by
  induction s with
  | nil => exact .nil
  | cons c s ih =>
    rw [List.flatMap_cons]
    by_cases hc : c = lf
    · subst hc
      rw [if_pos rfl]
      rcases h with rfl | rfl
      · exact .alone ih
      · exact .both ih
    · rw [if_neg hc]
      exact .keep hc ih

/-- What has no line feed in it stays as it is. -/
theorem exists_append (hs : lf ∉ s) (h : LineEndsRewritten lf cr (s ++ t) u) :
    ∃ rest, u = s ++ rest ∧ LineEndsRewritten lf cr t rest := by
  induction s generalizing u with
  | nil => exact ⟨u, rfl, h⟩
  | cons c s ih =>
    cases h with
    | both h => exact absurd List.mem_cons_self hs
    | alone h => exact absurd List.mem_cons_self hs
    | keep hc h =>
      obtain ⟨rest, rfl, hrest⟩ := ih (fun hmem => hs (List.mem_cons_of_mem _ hmem)) h
      exact ⟨rest, rfl, hrest⟩

end Sequences

/-! ## Texts -/

/-- Reading line ends gives back a text whose line ends have been rewritten. -/
theorem foldNewlines_eq {t t' : Text} (ht : t.HasNoReturn)
    (h : LineEndsRewritten (CodePoint.scalar '\n') (CodePoint.scalar '\r') t t') : t'.foldNewlines = t := by
  induction h with
  | nil => rfl
  | both h ih =>
    rw [Text.foldNewlines, ih fun c hc => ht c (List.mem_cons_of_mem _ hc)]
  | @alone s t h ih =>
    have hfold : Text.foldNewlines (.scalar '\r' :: t) = .scalar '\n' :: Text.foldNewlines t := by
      rw [Text.foldNewlines]
      rintro rest rfl
      exact h.head?_ne (by decide) rfl
    rw [hfold, ih fun c hc => ht c (List.mem_cons_of_mem _ hc)]
  | @keep c s t hc h ih =>
    have hreturn : c ≠ .scalar '\r' := ht c List.mem_cons_self
    have hfold : Text.foldNewlines (c :: t) = c :: Text.foldNewlines t := by
      rw [Text.foldNewlines]
      · exact fun _ heq => absurd heq hreturn
      · exact hreturn
    rw [hfold, ih fun c hc => ht c (List.mem_cons_of_mem _ hc)]

end LineEndsRewritten

theorem Text.isUnicode_foldNewlines {t : Text} (h : t.isUnicode) : t.foldNewlines.isUnicode := by
  rw [Text.isUnicode_iff] at h ⊢
  fun_induction Text.foldNewlines t with
  | case1 => exact List.forall_mem_nil _
  | case2 t ih => exact List.forall_mem_cons.2 ⟨rfl, ih fun c hc => h c (by simp [hc])⟩
  | case3 t _ ih => exact List.forall_mem_cons.2 ⟨rfl, ih fun c hc => h c (by simp [hc])⟩
  | case4 c t _ _ ih => exact List.forall_mem_cons.2 ⟨h c (by simp), ih fun c hc => h c (by simp [hc])⟩

/-! ## Bytes -/

namespace Utf8

/-- Rewriting the line ends in the bytes of a text rewrites those of the text. -/
theorem exists_rewritten {position : Nat} {t : Text} {bytes bytes' : Bytes}
    (hbytes : encodeFrom position t = .ok bytes) (h : LineEndsRewritten 0x0A 0x0D bytes bytes') :
    ∃ t', LineEndsRewritten (CodePoint.scalar '\n') (CodePoint.scalar '\r') t t' ∧
      ∀ position, encodeFrom position t' = .ok bytes' := by
  induction t generalizing position bytes bytes' with
  | nil =>
    obtain rfl := Except.ok.inj hbytes
    cases h
    exact ⟨[], .nil, fun _ => rfl⟩
  | cons c t ih =>
    obtain ⟨character, rest, rfl, hrest, rfl⟩ := encodeFrom_cons_eq_ok hbytes
    by_cases hline : character = '\n'
    · subst hline
      rw [show encodeChar '\n' = [0x0A] from rfl, List.singleton_append] at h
      cases h with
      | both h =>
        obtain ⟨t', ht', hencode⟩ := ih hrest h
        exact ⟨_, .both ht', fun _ => encodeFrom_cons (encodeFrom_cons (hencode _) '\n') '\r'⟩
      | alone h =>
        obtain ⟨t', ht', hencode⟩ := ih hrest h
        exact ⟨_, .alone ht', fun _ => encodeFrom_cons (hencode _) '\r'⟩
      | keep hc h => exact absurd rfl hc
    · have hnone : (0x0A : UInt8) ∉ encodeChar character := by
        intro hmem
        exact hline (Char.toNat_inj.1 (toNat_eq_of_mem_encodeChar hmem (by decide)))
      obtain ⟨rest', rfl, hrewritten⟩ := h.exists_append hnone
      obtain ⟨t', ht', hencode⟩ := ih hrest hrewritten
      refine ⟨_, .keep ?_ ht', fun _ => encodeFrom_cons (hencode _) character⟩
      exact fun heq => hline (CodePoint.scalar.inj heq)

end Utf8

end ModuleCatalog
