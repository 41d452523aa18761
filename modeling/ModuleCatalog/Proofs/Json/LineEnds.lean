import ModuleCatalog.Proofs.Json.Characters
import ModuleCatalog.Text.Newline

/-!
# Line ends of written values

No carriage return stands in a written value, because strings escape it and no layout uses it. So written
values are read from files as they are.
-/

namespace ModuleCatalog

/-- Whether a text has no carriage return in it. -/
def Text.HasNoReturn (t : Text) : Prop := ∀ c ∈ t, c ≠ .scalar '\r'

instance (t : Text) : Decidable t.HasNoReturn := inferInstanceAs (Decidable (∀ c ∈ t, c ≠ .scalar '\r'))

/-- Reading line ends changes nothing but carriage returns. -/
theorem Text.HasNoReturn.foldNewlines_eq {t : Text} (h : t.HasNoReturn) : t.foldNewlines = t := by
  fun_induction Text.foldNewlines t with
  | case1 => rfl
  | case2 t ih => exact absurd rfl (h _ List.mem_cons_self)
  | case3 t hline ih => exact absurd rfl (h _ List.mem_cons_self)
  | case4 c t hreturn hline ih => rw [ih fun other hother => h other (List.mem_cons_of_mem _ hother)]

namespace Json

mutual

theorem allStrings_true {q : Text → Prop} (hq : ∀ t, q t) : ∀ v : Json, AllStrings q v
  | .null | .boolean _ | .integer _ | .number _ => trivial
  | .string value => hq value
  | .array items => allItems_true hq items
  | .object members => allMembers_true hq members

theorem allItems_true {q : Text → Prop} (hq : ∀ t, q t) : ∀ items : List Json, AllItems q items
  | [] => trivial
  | item :: items => ⟨allStrings_true hq item, allItems_true hq items⟩

theorem allMembers_true {q : Text → Prop} (hq : ∀ t, q t) :
    ∀ members : List (Text × Json), AllMembers q members
  | [] => trivial
  | (name, value) :: members => ⟨hq name, allStrings_true hq value, allMembers_true hq members⟩

end

theorem hasNoReturn_indented {alphabet : Alphabet} {v : Json} (h : IsPlain alphabet v) :
    (v.indented alphabet).HasNoReturn := by
  have htoken : ∀ c ∈ tokenCharacters, c ≠ .scalar '\r' := by decide
  have hstring : ∀ t : Text, ∀ c ∈ t, 0x20 ≤ c.toNat → c ≠ .scalar '\r' := by
    rintro t c - hprinted rfl
    exact absurd hprinted (by decide)
  exact forall_mem_written (fun c hc => htoken c (mem_tokenCharacters_of_mem_line hc)) (Layout.all_lines htoken) v 0 h
    (allStrings_true hstring v)

end Json

end ModuleCatalog
