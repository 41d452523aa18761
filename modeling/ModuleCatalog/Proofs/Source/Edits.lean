import ModuleCatalog.Proofs.Json.LineEnds
import ModuleCatalog.Proofs.Source.Copy

/-!
# Edits that keep the declared module

A text that declares a module and ends with the brace of a class body may stand anywhere in a longer text, as long
as no keyword of a namespace comes before it and it does not go on with a word. A text may be stored with either
kind of line end. Neither changes what the text declares.
-/

namespace ModuleCatalog

/-- A text with a return before each of its line feeds. -/
def Text.withReturns (t : Text) : Text := t.flatMap fun c => if c = .scalar '\n' then "\r\n" else [c]

namespace Source

/-! ## Surroundings -/

section Surroundings

variable {before t : Text}

theorem copy_append (hbrace : t.getLast? = some (.scalar '{')) (after : Text) : Copy True t (t ++ after) := by
  induction t with
  | nil => cases hbrace
  | cons c t ih =>
    cases t with
    | nil =>
      obtain rfl := Option.some.inj hbrace
      exact .brace trivial after
    | cons d t =>
      have htail : Copy True (d :: t) (d :: t ++ after) := ih hbrace
      exact .keep c (fun _ => rfl) htail

theorem declaredModule?_append {m : Module} (h : declaredModule? t = some m)
    (hbrace : t.getLast? = some (.scalar '{')) (after : Text) : declaredModule? (t ++ after) = some m := by
  rcases (copy_append hbrace after).declaredModule? with hsame | ⟨-, hnone⟩
  · rw [← rel_eq_iff.1 hsame, h]
  · cases h.symm.trans hnone

theorem declaredModule?_append_left (hlacks : ¬ Text.ofString "namespace" <:+: before)
    (hends : ∀ c, before.getLast? = some c → c.isWord = false) :
    declaredModule? (before ++ t) = declaredModule? t := by
  have hspace : declaredNamespace? (before ++ t) = declaredNamespace? t :=
    namespaceFrom?_append_of_lacks hlacks hends fun _ => rfl
  rw [declaredModule?, hspace, declaredModule?]

/-- The module of a text that ends with a brace does not depend on what stands around the text. -/
theorem declaredModule?_of_surrounded {m : Module} (h : declaredModule? t = some m)
    (hbrace : t.getLast? = some (.scalar '{')) (hlacks : ¬ Text.ofString "namespace" <:+: before)
    (hends : ∀ c, before.getLast? = some c → c.isWord = false) (after : Text) :
    declaredModule? (before ++ t ++ after) = some m := by
  rw [List.append_assoc, declaredModule?_append_left hlacks hends]
  exact declaredModule?_append h hbrace after

/-- A text with a comment that is not marked, a marker without a class, and the opening of a class body. -/
def openedText : Text :=
  "namespace A ;\n/* plain */ /**@module none\n*/ (\x7b\x7d) /** @module a(b=1) c\n * */\nfinal class C\n\x7b"

theorem declaredModule?_openedText :
    declaredModule? ("<?php\n/** @module early\n*/\n" ++ openedText ++ "\x7d\n/** @module late\n*/class D \x7b\x7d") =
      some ⟨"A", "C", [⟨"a", [⟨some "b", "1"⟩]⟩, .bare "c"]⟩ := by
  have hopened : declaredModule? openedText = some ⟨"A", "C", [⟨"a", [⟨some "b", "1"⟩]⟩, .bare "c"]⟩ := by
    decide +kernel
  exact declaredModule?_of_surrounded hopened (by decide) (by decide) (by decide) _

end Surroundings

/-! ## Line ends -/

theorem copy_withReturns {t : Text} (h : t.HasNoReturn) : Copy False t t.withReturns := by
  induction t with
  | nil => exact .nil
  | cons c t ih =>
    obtain ⟨hreturn, hrest⟩ := List.forall_mem_cons.1 h
    rw [Text.withReturns, List.flatMap_cons]
    split
    · next hfeed =>
      rw [hfeed]
      exact .lineFeed (ih hrest)
    · exact .keep c (fun heq => absurd heq hreturn) (ih hrest)

/-- A text declares the same module with either kind of line end. -/
theorem declaredModule?_withReturns {t : Text} (h : t.HasNoReturn) :
    declaredModule? t.withReturns = declaredModule? t := by
  rcases (copy_withReturns h).declaredModule? with hsame | ⟨hgoesOn, -⟩
  · exact (rel_eq_iff.1 hsame).symm
  · exact hgoesOn.elim

theorem declaredModule?_withReturns_openedText :
    declaredModule? openedText.withReturns = some ⟨"A", "C", [⟨"a", [⟨some "b", "1"⟩]⟩, .bare "c"]⟩ := by
  rw [declaredModule?_withReturns (by decide)]
  decide +kernel

end Source

end ModuleCatalog
