import Mathlib.Data.List.DropRight
import Mathlib.Data.List.Forall2
import Mathlib.Order.Bounds.Basic
import ModuleCatalog.Category.Parser
import ModuleCatalog.Proofs.Text.Literal
import ModuleCatalog.Proofs.Text.Pieces

/-!
# What category text says

The entries of category text are its pieces between spaces. An entry is a call if one of its opening parentheses
stands right behind a word and is closed on its line. The first such parenthesis counts, and the last one that
closes it on the line: the word before it names the category, and the text in between holds the arguments. Every
other entry names a category as it is. The reader finds for every text what is said here, and nothing else.
-/

namespace ModuleCatalog

/-! ## Arguments -/

/-- What a component of argument text says: a value, or a key and a value around the first equals sign. -/
inductive Attribute.Says (component : Text) : Attribute → Prop
  | positional (h : CodePoint.scalar '=' ∉ component) : Says component ⟨none, component.trim⟩
  | keyed {key value : Text} (hkey : CodePoint.scalar '=' ∉ key) (h : component = key ++ .scalar '=' :: value) :
      Says component ⟨some key.trim, value.trim⟩

theorem Attribute.says_iff (component : Text) (a : Attribute) : Says component a ↔ a = parse component := by
  constructor
  · intro h
    cases h with
    | positional h => rw [parse, Text.splitFirst?_eq_none_iff.2 h]
    | keyed hkey h => rw [parse, Text.splitFirst?_eq_some_iff.2 ⟨hkey, h⟩]
  · rintro rfl
    cases hsplit : Text.splitFirst? '=' component with
    | none =>
      rw [parse, hsplit]
      exact .positional (Text.splitFirst?_eq_none_iff.1 hsplit)
    | some parts =>
      obtain ⟨hkey, heq⟩ := Text.splitFirst?_eq_some_iff.1 hsplit
      rw [parse, hsplit]
      exact .keyed hkey heq

/-- A relation that determines its second side, piece by piece. -/
theorem forall₂_iff_eq_map {α β : Type} {R : α → β → Prop} {f : α → β} (hR : ∀ a b, R a b ↔ b = f a)
    {l : List α} {m : List β} : List.Forall₂ R l m ↔ m = l.map f := by
  induction l generalizing m with
  | nil => rw [List.forall₂_nil_left_iff, List.map_nil]
  | cons a l ih =>
    rw [List.forall₂_cons_left_iff, List.map_cons]
    constructor
    · rintro ⟨b, rest, hb, hrest, rfl⟩
      rw [(hR a b).1 hb, ih.1 hrest]
    · rintro rfl
      exact ⟨f a, l.map f, (hR a (f a)).2 rfl, ih.2 rfl, rfl⟩

/-! ## Places -/

section Places

variable {t : Text} {c last : CodePoint} {k : Nat}

theorem Text.beforeLast?_eq_none_iff : Text.beforeLast? last t = none ↔ last ∉ t := by
  induction t with
  | nil => simp [beforeLast?]
  | cons c t ih =>
    rw [beforeLast?, List.mem_cons, not_or, ← ih]
    cases beforeLast? last t with
    | none => simp [eq_comm]
    | some before => simp

theorem Text.eq_append_of_beforeLast? {before : Text} (h : Text.beforeLast? last t = some before) :
    ∃ after, last ∉ after ∧ t = before ++ last :: after := by
  induction t generalizing before with
  | nil => cases h
  | cons c t ih =>
    rw [beforeLast?] at h
    split at h
    · next found hfound =>
      obtain rfl := Option.some.inj h
      obtain ⟨after, hafter, rfl⟩ := ih hfound
      exact ⟨after, hafter, rfl⟩
    · next hnone =>
      split at h
      · next hc =>
        obtain rfl := Option.some.inj h
        exact ⟨t, Text.beforeLast?_eq_none_iff.1 hnone, by rw [hc, List.nil_append]⟩
      · cases h

theorem Text.beforeLast?_concat (last : CodePoint) (t : Text) : beforeLast? last (t ++ [last]) = some t := by
  induction t with
  | nil => rw [List.nil_append, beforeLast?, beforeLast?, if_pos rfl]
  | cons c t ih => rw [List.cons_append, beforeLast?, ih]

theorem Text.getElem?_takeWhile {p : CodePoint → Bool} :
    (t.takeWhile p)[k]? = some c ↔ t[k]? = some c ∧ ∀ i ≤ k, ∀ d, t[i]? = some d → p d := by
  induction t generalizing k with
  | nil => simp
  | cons a t ih =>
    rw [List.takeWhile_cons]
    by_cases ha : p a
    · rw [if_pos ha]
      cases k with
      | zero => simp +contextual [ha]
      | succ k =>
        rw [List.getElem?_cons_succ, List.getElem?_cons_succ, ih]
        refine and_congr_right fun _ => ⟨fun h i hi d hd => ?_, fun h i hi d hd => ?_⟩
        · cases i with
          | zero => rwa [← Option.some.inj hd]
          | succ i => exact h i (Nat.le_of_succ_le_succ hi) d hd
        · exact h (i + 1) (Nat.succ_le_succ hi) d hd
    · rw [if_neg ha]
      constructor
      · intro h
        cases h
      · rintro ⟨-, h⟩
        exact absurd (h 0 (Nat.zero_le k) a rfl) ha

end Places

namespace Category

/-- The places of the closing parentheses behind a place of an entry, on the same line. -/
def closingPlaces (entry : Text) (place : Nat) : Set Nat :=
  {stop | place < stop ∧ entry[stop]? = some (.scalar ')') ∧
    ∀ i, place < i → i < stop → entry[i]? ≠ some (.scalar '\n')}

/-- The places of the opening parentheses of an entry that stand behind a word and are closed on their line. -/
def callPlaces (entry : Text) : Set Nat :=
  {place | entry[place]? = some (.scalar '(') ∧
    (∃ c, 0 < place ∧ entry[place - 1]? = some c ∧ c.isWord) ∧ (closingPlaces entry place).Nonempty}

/-- What an entry says: the name of a category, or a name and arguments. -/
inductive Says (entry : Text) : Category → Prop
  | bare (h : callPlaces entry = ∅) : Says entry (.bare entry)
  | call {place stop components attributes} (hplace : IsLeast (callPlaces entry) place)
      (hstop : IsGreatest (closingPlaces entry place) stop)
      (hcomponents : Text.Separated ',' ((entry.take stop).drop (place + 1)) components)
      (hattributes : List.Forall₂ Attribute.Says components attributes) :
      Says entry ⟨(entry.take place).rtakeWhile CodePoint.isWord, attributes⟩

/-! ## Argument text -/

section Arguments

variable {entry arguments : Text} {place stop : Nat}

/-- What stands behind a place on the same line. -/
def restOfLine (entry : Text) (place : Nat) : Text := (entry.drop (place + 1)).takeWhile (· ≠ .scalar '\n')

theorem mem_closingPlaces_iff :
    stop ∈ closingPlaces entry place ↔
      ∃ k, stop = place + 1 + k ∧ (restOfLine entry place)[k]? = some (.scalar ')') := by
  simp only [restOfLine, Text.getElem?_takeWhile, List.getElem?_drop]
  constructor
  · rintro ⟨hlt, hclosing, hline⟩
    obtain ⟨k, rfl⟩ := Nat.exists_eq_add_of_le (Nat.succ_le_of_lt hlt)
    refine ⟨k, rfl, hclosing, fun i hi d hd => decide_eq_true ?_⟩
    rintro rfl
    rcases Nat.eq_or_lt_of_le hi with rfl | hi
    · exact absurd (Option.some.inj (hclosing.symm.trans hd)) (by decide)
    · exact hline (place + 1 + i) (by omega) (by omega) hd
  · rintro ⟨k, rfl, hclosing, hline⟩
    refine ⟨by omega, hclosing, fun i hi hlt hbreak => ?_⟩
    obtain ⟨j, rfl⟩ := Nat.exists_eq_add_of_le (Nat.succ_le_of_lt hi)
    exact of_decide_eq_true (hline j (by omega) _ hbreak) rfl

theorem argumentText?_drop (entry : Text) (place : Nat) :
    argumentText? (entry.drop (place + 1)) = Text.beforeLast? ')' (restOfLine entry place) := rfl

/-- Argument text reaches to the last closing parenthesis. -/
theorem exists_of_argumentText? (h : argumentText? (entry.drop (place + 1)) = some arguments) :
    ∃ stop, IsGreatest (closingPlaces entry place) stop ∧ arguments = (entry.take stop).drop (place + 1) := by
  rw [argumentText?_drop] at h
  obtain ⟨after, hafter, hline⟩ := Text.eq_append_of_beforeLast? h
  refine ⟨place + 1 + arguments.length, ⟨?_, ?_⟩, ?_⟩
  · apply mem_closingPlaces_iff.2
    refine ⟨arguments.length, rfl, ?_⟩
    rw [hline, List.getElem?_append_right (Nat.le_refl _), Nat.sub_self]
    rfl
  · intro other hother
    obtain ⟨k, rfl, hk⟩ := mem_closingPlaces_iff.1 hother
    apply Nat.add_le_add_left
    by_contra hlt
    obtain ⟨j, rfl⟩ := Nat.exists_eq_add_of_le (Nat.succ_le_of_lt (Nat.not_le.1 hlt))
    apply hafter
    apply List.mem_of_getElem? (i := j)
    have hindex : arguments.length.succ + j - arguments.length = j + 1 := by omega
    rw [hline, List.getElem?_append_right (by omega), hindex] at hk
    exact hk
  · obtain ⟨tail, htail⟩ : restOfLine entry place <+: entry.drop (place + 1) := List.takeWhile_prefix _
    rw [List.drop_take, Nat.add_sub_cancel_left, ← htail, hline, List.append_assoc, List.take_left]

theorem argumentText?_ne_none (h : (closingPlaces entry place).Nonempty) :
    argumentText? (entry.drop (place + 1)) ≠ none := by
  obtain ⟨stop, hstop⟩ := h
  obtain ⟨k, -, hk⟩ := mem_closingPlaces_iff.1 hstop
  rw [argumentText?_drop, ne_eq, Text.beforeLast?_eq_none_iff, not_not]
  exact List.mem_of_getElem? hk

end Arguments

/-! ## Calls -/

section Calls

variable {entry name arguments run rest : Text} {place : Nat}

theorem callAt?_eq_some (h : callAt? entry = some (name, arguments)) :
    name.IsWordRun ∧ ∃ rest, entry = name ++ .scalar '(' :: rest ∧ argumentText? rest = some arguments := by
  unfold callAt? at h
  split at h
  · cases h
  · next found rest hne hspan =>
    obtain ⟨arguments', harguments, heq⟩ := Option.map_eq_some_iff.1 h
    obtain ⟨rfl, rfl⟩ := Prod.mk.inj heq
    obtain ⟨hname, hrest⟩ := Prod.mk.inj hspan
    refine ⟨⟨hne, fun c hc => List.mem_takeWhile_imp (hname ▸ hc)⟩, rest, ?_, harguments⟩
    rw [← hname, ← hrest, List.takeWhile_append_dropWhile]
  · cases h

theorem callAt?_append (hrun : run.IsWordRun) (rest : Text) :
    callAt? (run ++ .scalar '(' :: rest) = (argumentText? rest).map fun arguments => (run, arguments) := by
  have hspan : Text.spanWord (run ++ .scalar '(' :: rest) = (run, .scalar '(' :: rest) := by
    apply Text.spanWord_append hrun
    intro c hc
    rw [← Option.some.inj hc]
    decide
  obtain ⟨c, tail, rfl, -⟩ := hrun.exists_cons
  rw [callAt?, hspan]
  rfl

/-- A word before a call place is read as the name of a call, from wherever in the word one begins. -/
theorem callAt?_ne_none (hrun : run.IsWordRun) (hplace : place ∈ callPlaces entry) :
    callAt? (run ++ entry.drop place) ≠ none := by
  rw [Text.drop_eq_cons hplace.1, callAt?_append hrun, ne_eq, Option.map_eq_none_iff]
  exact argumentText?_ne_none hplace.2.2

/-- The search finds the first place from which a call can be read. -/
theorem findCall?_drop (entry : Text) (start : Nat) :
    (findCall? (entry.drop start) = none ∧ ∀ i, start ≤ i → callAt? (entry.drop i) = none) ∨
      ∃ first call, findCall? (entry.drop start) = some call ∧ callAt? (entry.drop first) = some call ∧
        ∀ i, start ≤ i → i < first → callAt? (entry.drop i) = none := by
  -- The search recurses on what is left of the entry, with the place at which it begins.
  induction hrest : entry.drop start generalizing start with
  | nil =>
    refine .inl ⟨rfl, fun i hi => ?_⟩
    rw [List.drop_eq_nil_of_le (Nat.le_trans (List.drop_eq_nil_iff.1 hrest) hi)]
    rfl
  | cons c rest ih =>
    have hnext : entry.drop (start + 1) = rest := Text.drop_succ_of_drop_eq_cons hrest
    rw [findCall?, ← hrest]
    cases hcall : callAt? (entry.drop start) with
    | some call => exact .inr ⟨start, call, rfl, hcall, fun i hi hlt => absurd hi (Nat.not_le.2 hlt)⟩
    | none =>
      have hstep : ∀ i, start ≤ i → (start + 1 ≤ i → callAt? (entry.drop i) = none) →
          callAt? (entry.drop i) = none := by
        intro i hi hlater
        rcases Nat.eq_or_lt_of_le hi with rfl | hi
        · exact hcall
        · exact hlater hi
      rcases ih (start + 1) hnext with ⟨hnone, hnot⟩ | ⟨first, call, hfound, hat, hnot⟩
      · exact .inl ⟨hnone, fun i hi => hstep i hi (hnot i)⟩
      · exact .inr ⟨first, call, hfound, hat, fun i hi hlt => hstep i hi fun hi => hnot i hi hlt⟩

theorem rtakeWhile_append_of_forall {p : CodePoint → Bool} {before : Text} (hrun : ∀ c ∈ run, p c)
    (hbefore : ∀ c, before.getLast? = some c → p c = false) : (before ++ run).rtakeWhile p = run := by
  induction run using List.reverseRecOn with
  | nil =>
    rw [List.append_nil, List.rtakeWhile_eq_nil_iff]
    intro hne
    rw [hbefore _ (List.getLast?_eq_some_getLast hne)]
    exact Bool.false_ne_true
  | append_singleton run c ih =>
    obtain ⟨hrun, hc⟩ := List.forall_mem_append.1 hrun
    rw [← List.append_assoc, List.rtakeWhile_concat_pos _ _ _ (hc c List.mem_cons_self), ih hrun]

theorem drop_eq_of_callAt? {first : Nat} (h : callAt? (entry.drop first) = some (name, arguments)) :
    entry.drop first = name ++ entry.drop (first + name.length) := by
  obtain ⟨-, rest, hrest, -⟩ := callAt?_eq_some h
  rw [← List.drop_drop, hrest, List.drop_left]

/-- A call that can be read ends its name at a call place. -/
theorem mem_callPlaces_of_callAt? {first : Nat} (h : callAt? (entry.drop first) = some (name, arguments)) :
    first + name.length ∈ callPlaces entry ∧ ∃ stop, IsGreatest (closingPlaces entry (first + name.length)) stop ∧
      arguments = (entry.take stop).drop (first + name.length + 1) := by
  obtain ⟨hname, rest, hrest, harguments⟩ := callAt?_eq_some h
  have hsplit := drop_eq_of_callAt? h
  have hplace : entry.drop (first + name.length) = .scalar '(' :: rest :=
    List.append_cancel_left (hsplit.symm.trans hrest)
  have hbehind : entry.drop (first + name.length + 1) = rest := Text.drop_succ_of_drop_eq_cons hplace
  rw [← hbehind] at harguments
  obtain ⟨stop, hstop, heq⟩ := exists_of_argumentText? harguments
  refine ⟨⟨Text.getElem?_of_drop_eq_cons hplace, ?_, stop, hstop.1⟩, stop, hstop, heq⟩
  · have hpositive : 0 < name.length := List.length_pos_iff.2 hname.ne_nil
    refine ⟨name[name.length - 1], Nat.add_pos_right first hpositive, ?_, hname.isWord _ (List.getElem_mem _)⟩
    have hindex : first + name.length - 1 = first + (name.length - 1) := by omega
    rw [hindex, ← List.getElem?_drop, hsplit, List.getElem?_append_left (by omega), List.getElem?_eq_getElem]

/-- A call can be read from the character before a call place. -/
theorem callAt?_pred_ne_none (hplace : place ∈ callPlaces entry) : callAt? (entry.drop (place - 1)) ≠ none := by
  obtain ⟨c, hpositive, hc, hword⟩ := hplace.2.1
  have hsplit : entry.drop (place - 1) = [c] ++ entry.drop place := by
    rw [Text.drop_eq_cons hc, Nat.sub_add_cancel hpositive, List.singleton_append]
  rw [hsplit]
  exact callAt?_ne_none ⟨List.cons_ne_nil c [], List.forall_mem_singleton.2 hword⟩ hplace

section First

variable {first : Nat} (hat : callAt? (entry.drop first) = some (name, arguments))
  (hnot : ∀ i < first, callAt? (entry.drop i) = none)

include hat hnot

/-- The first call that can be read belongs to the first call place. -/
theorem isLeast_callPlaces : IsLeast (callPlaces entry) (first + name.length) := by
  refine ⟨(mem_callPlaces_of_callAt? hat).1, fun other hother => ?_⟩
  by_contra hlt
  by_cases hinside : first < other
  · obtain ⟨k, rfl⟩ := Nat.exists_eq_add_of_lt hinside
    have hsplit : (entry.drop first)[k + 1]? = name[k + 1]? := by
      rw [drop_eq_of_callAt? hat, List.getElem?_append_left (by omega)]
    have hchar : name[k + 1]? = some (.scalar '(') := by
      rw [← hsplit, List.getElem?_drop]
      exact hother.1
    have hword := (callAt?_eq_some hat).1.isWord _ (List.mem_of_getElem? hchar)
    exact absurd hword (by decide)
  · obtain ⟨c, hpositive, -⟩ := hother.2.1
    exact callAt?_pred_ne_none hother (hnot (other - 1) (by omega))

/-- The name of the first call is the whole word before its place. -/
theorem rtakeWhile_take_eq : (entry.take (first + name.length)).rtakeWhile CodePoint.isWord = name := by
  have hname := (callAt?_eq_some hat).1
  have htake : entry.take (first + name.length) = entry.take first ++ name := by
    rw [List.take_add, drop_eq_of_callAt? hat, List.take_left]
  rw [htake]
  apply rtakeWhile_append_of_forall hname.isWord
  intro c hc
  obtain ⟨before, hbefore⟩ := List.getLast?_eq_some_iff.1 hc
  by_contra hword
  rw [Bool.not_eq_false] at hword
  -- A word character before the name would let the call be read one character earlier.
  have hlt : before.length < first := by
    have hlength := congrArg List.length hbefore
    rw [List.length_take, List.length_append, List.length_singleton] at hlength
    omega
  have hsplit : entry.drop before.length = (c :: name) ++ entry.drop (first + name.length) := by
    have hwhole : entry = before ++ ([c] ++ (name ++ entry.drop (first + name.length))) := by
      rw [← drop_eq_of_callAt? hat, ← List.append_assoc, ← hbefore, List.take_append_drop]
    calc entry.drop before.length
        = (before ++ ([c] ++ (name ++ entry.drop (first + name.length)))).drop before.length := by rw [← hwhole]
      _ = (c :: name) ++ entry.drop (first + name.length) := List.drop_left
  have hrun : Text.IsWordRun (c :: name) :=
    ⟨List.cons_ne_nil c name, List.forall_mem_cons.2 ⟨hword, hname.isWord⟩⟩
  apply callAt?_ne_none hrun (mem_callPlaces_of_callAt? hat).1
  rw [← hsplit]
  exact hnot before.length hlt

end First

/-- The search finds the arguments of the first call place, and fails if there is none. -/
theorem findCall?_cases (entry : Text) :
    (callPlaces entry = ∅ ∧ findCall? entry = none) ∨
      ∃ place stop, IsLeast (callPlaces entry) place ∧ IsGreatest (closingPlaces entry place) stop ∧
        findCall? entry =
          some ((entry.take place).rtakeWhile CodePoint.isWord, (entry.take stop).drop (place + 1)) := by
  rcases findCall?_drop entry 0 with ⟨hnone, hnot⟩ | ⟨first, ⟨name, arguments⟩, hfound, hat, hnot⟩
  · left
    refine ⟨Set.eq_empty_of_forall_notMem fun place hplace => ?_, hnone⟩
    exact callAt?_pred_ne_none hplace (hnot (place - 1) (Nat.zero_le _))
  · right
    have hbefore : ∀ i < first, callAt? (entry.drop i) = none := fun i hi => hnot i (Nat.zero_le i) hi
    obtain ⟨-, stop, hstop, harguments⟩ := mem_callPlaces_of_callAt? hat
    refine ⟨first + name.length, stop, isLeast_callPlaces hat hbefore, hstop, ?_⟩
    rw [rtakeWhile_take_eq hat hbefore, ← harguments]
    exact hfound

end Calls

/-! ## Entries -/

variable {entry t : Text} {c : Category} {categories : List Category}

theorem eq_parse_of_says (h : Says entry c) : c = parse entry := by
  rw [parse]
  cases h with
  | bare hnone =>
    rcases findCall?_cases entry with ⟨-, hfind⟩ | ⟨place, stop, hplace, -⟩
    · rw [hfind]
    · exact absurd hplace.1 (hnone ▸ Set.notMem_empty place)
  | @call place stop components attributes hplace hstop hcomponents hattributes =>
    rcases findCall?_cases entry with ⟨hnone, -⟩ | ⟨place', stop', hplace', hstop', hfind⟩
    · exact absurd hplace.1 (hnone ▸ Set.notMem_empty place)
    · obtain rfl := hplace.unique hplace'
      obtain rfl := hstop.unique hstop'
      rw [hfind, (forall₂_iff_eq_map Attribute.says_iff).1 hattributes, Text.separated_iff.1 hcomponents]

theorem says_parse (entry : Text) : Says entry (parse entry) := by
  rw [parse]
  rcases findCall?_cases entry with ⟨hnone, hfind⟩ | ⟨place, stop, hplace, hstop, hfind⟩
  · rw [hfind]
    exact .bare hnone
  · rw [hfind]
    apply Says.call hplace hstop (Text.separated_iff.2 rfl)
    exact (forall₂_iff_eq_map Attribute.says_iff).2 rfl

theorem says_iff (entry : Text) (c : Category) : Says entry c ↔ c = parse entry := by
  constructor
  · exact eq_parse_of_says
  · rintro rfl
    exact says_parse entry

/-- Category text is read as what its entries say, one category for each, in their order. -/
theorem parseAll_eq_iff :
    parseAll t = categories ↔ ∃ entries, Text.Separated ' ' t.trim entries ∧ List.Forall₂ Says entries categories := by
  calc parseAll t = categories
      ↔ categories = (Text.splitOn ' ' t.trim).map parse := eq_comm
    _ ↔ List.Forall₂ Says (Text.splitOn ' ' t.trim) categories := (forall₂_iff_eq_map says_iff).symm
    _ ↔ ∃ entries, Text.Separated ' ' t.trim entries ∧ List.Forall₂ Says entries categories := by
      simp only [Text.separated_iff, exists_eq_left]

end Category

end ModuleCatalog
