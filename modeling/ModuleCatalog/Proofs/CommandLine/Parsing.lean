import Mathlib.Data.List.Perm.Basic
import Mathlib.Data.List.TakeDrop
import ModuleCatalog.CommandLine.Invocation
import ModuleCatalog.Proofs.Fallible
import ModuleCatalog.Proofs.Text.Literal
import ModuleCatalog.Proofs.Text.Pieces

/-!
# Arguments that name what they set

The name of a switch, or the name of an option with a value behind an equals sign, sets one key, whatever the value is
and whatever stands around it. A program without operands takes any number of such arguments. A program with commands
leaves to a command what stands behind its name. So the arguments of a command may come in any order.
-/

namespace ModuleCatalog.CommandLine

/-! ## Single arguments -/

/-- Whether the names of a grammar cannot be taken for anything else: they begin with a dash, none is two dashes
alone, and none holds an equals sign. -/
structure Grammar.HasProperNames (g : Grammar) : Prop where
  dashed : ∀ name ∈ Assoc.keys g.names, Text.startsWith name "-"
  ne_separator : ∀ name ∈ Assoc.keys g.names, name ≠ "--"
  no_equals : ∀ name ∈ Assoc.keys g.names, .scalar '=' ∉ name

/-- What an argument sets by itself: the key of a switch that it names, or a value of the key of an option that it names
in front of an equals sign. -/
inductive Grammar.Sets (g : Grammar) : Text → Text × Value → Prop
  | switch {o : OptionSpec} {name : Text} (hname : g.option? name = some o) (hkind : o.kind = .switch) :
    Sets g name (o.key, .on)
  | value {o : OptionSpec} {name written : Text} {v : Value} (hname : g.option? name = some o)
    (htakes : o.takesValue) (hvalue : valueOf? o.kind written = some v) :
    Sets g (name ++ .scalar '=' :: written) (o.key, v)

section Single

variable {g : Grammar} {o : OptionSpec} {name written argument : Text} {entry : Text × Value}

theorem mem_names_of_option? (h : g.option? name = some o) : name ∈ Assoc.keys g.names := by
  by_contra hnot
  rw [← Assoc.get?_eq_none_iff, ← Grammar.option?, h] at hnot
  cases hnot

theorem interpret_name (hg : g.HasProperNames) (hname : g.option? name = some o) :
    g.interpret name = .ok (some (.known o (isLongName name) none)) := by
  have hdash : (!Text.startsWith name "-") = false := by
    rw [hg.dashed name (mem_names_of_option? hname), Bool.not_true]
  simp only [Grammar.interpret, hdash, hname, Bool.false_eq_true, if_false]

theorem interpret_value (hg : g.HasProperNames) (hname : g.option? name = some o) :
    g.interpret (name ++ .scalar '=' :: written) = .ok (some (.known o (isLongName name) (some written))) := by
  have hmem := mem_names_of_option? hname
  have hequals : .scalar '=' ∉ name := hg.no_equals name hmem
  obtain ⟨rest, hrest⟩ := Text.startsWith_iff.1 (hg.dashed name hmem)
  have hdash : (!Text.startsWith (name ++ .scalar '=' :: written) "-") = false := by
    rw [Text.startsWith_iff.2 ⟨rest ++ .scalar '=' :: written, by rw [← List.append_assoc, hrest]⟩, Bool.not_true]
  have hnone : g.option? (name ++ .scalar '=' :: written) = none := by
    rw [Grammar.option?, Assoc.get?_eq_none_iff]
    intro hwhole
    exact hg.no_equals _ hwhole (List.mem_append_right _ List.mem_cons_self)
  have hlength : (name ++ .scalar '=' :: written).length ≠ 1 := by
    rw [← hrest]
    simp [Text.ofString]
  have hsplit : Text.splitFirst? '=' (name ++ .scalar '=' :: written) = some (name, written) :=
    Text.splitFirst?_eq_some_iff.2 ⟨hequals, rfl⟩
  simp only [Grammar.interpret, hdash, hnone, hlength, hsplit, hname, Bool.false_eq_true, if_false, Option.bind_some,
    Option.map_some]

theorem expand_value (htakes : o.takesValue) (isLong : Bool) :
    g.expand o isLong written = .ok ⟨[(o, some written)], none⟩ := by
  unfold Grammar.expand
  exact if_pos htakes

theorem apply_value {v : Value} (htakes : o.takesValue) (hvalue : valueOf? o.kind written = some v)
    (settings : Settings) : g.apply settings o (some written) = .ok (Assoc.put o.key v settings) := by
  cases hkind : o.kind with
  | help | switch =>
    rw [OptionSpec.takesValue, hkind] at htakes
    cases htakes
  | text | integer =>
    rw [hkind] at hvalue
    simp only [Grammar.apply, hkind, Option.getD_some, hvalue]

/-- An argument that sets something is read as an option, which changes the one key and takes nothing else. -/
theorem Grammar.Sets.takeOption (hg : g.HasProperNames) (h : g.Sets argument entry) :
    ∃ reading, g.interpret argument = .ok (some reading) ∧ ∀ s rest, g.takeOption s argument reading rest =
      .ok ({ s with settings := Assoc.put entry.1 entry.2 s.settings }, rest) := by
  cases h with
  | @switch o name hname hkind =>
    have htakes : o.takesValue = false := by rw [OptionSpec.takesValue, hkind]
    refine ⟨_, interpret_name hg hname, fun s rest => ?_⟩
    simp [Grammar.takeOption, Grammar.apply, htakes, hkind, bind, Except.bind, List.foldlM, pure, Except.pure]
  | @value o name written v hname htakes hvalue =>
    refine ⟨_, interpret_value hg hname, fun s rest => ?_⟩
    simp [Grammar.takeOption, expand_value htakes, apply_value htakes hvalue, bind, Except.bind, List.foldlM, pure,
      Except.pure]

theorem Grammar.Sets.ne_separator (hg : g.HasProperNames) (h : g.Sets argument entry) : argument ≠ "--" := by
  cases h with
  | switch hname hkind => exact hg.ne_separator _ (mem_names_of_option? hname)
  | value hname htakes hvalue =>
    intro hseparator
    have hequals : CodePoint.scalar '=' ∈ Text.ofString "--" := by
      rw [← hseparator]
      exact List.mem_append_right _ List.mem_cons_self
    revert hequals
    decide

end Single

/-! ## Programs without operands -/

section Settings

variable {g : Grammar} {arguments : List Text} {entries : List (Text × Value)}

theorem takeOperand_nothing (hoperand : g.operand = .nothing) (s : Parsed) (arguments : List (Text × Role)) :
    g.takeOperand s arguments = .ok (s, 0) := by
  unfold Grammar.takeOperand
  split
  · rfl
  · simp only [hoperand]

/-- Arguments that set something are taken one after the other. -/
theorem takeAll_of_sets (hg : g.HasProperNames) (hoperand : g.operand = .nothing)
    (h : List.Forall₂ g.Sets arguments entries) :
    ∃ roles, g.roles arguments = .ok roles ∧ ∀ fuel s, arguments.length < fuel → g.takeAll fuel s roles =
      .ok { s with settings := entries.foldl (fun table (key, value) => Assoc.put key value table) s.settings } := by
  induction h with
  | nil =>
    refine ⟨[], rfl, fun fuel s hfuel => ?_⟩
    obtain ⟨fuel, rfl⟩ := Nat.exists_eq_succ_of_ne_zero (Nat.ne_of_gt hfuel)
    simp [Grammar.takeAll, takeOperand_nothing hoperand, List.span_eq_takeWhile_dropWhile, bind, Except.bind]
  | @cons argument entry arguments entries hargument hrest ih =>
    obtain ⟨roles, hroles, htake⟩ := ih
    obtain ⟨reading, hinterpret, hoption⟩ := hargument.takeOption hg
    refine ⟨(argument, .option reading) :: roles, ?_, fun fuel s hfuel => ?_⟩
    · simp only [Grammar.roles, if_neg (hargument.ne_separator hg), hinterpret, hroles, bind, Except.bind]
    · obtain ⟨fuel, rfl⟩ := Nat.exists_eq_succ_of_ne_zero (Nat.ne_zero_of_lt hfuel)
      have hspan : ((argument, Role.option reading) :: roles).span (fun a => !a.2.isOption) =
          ([], (argument, .option reading) :: roles) := by
        rw [List.span_eq_takeWhile_dropWhile]
        rfl
      rw [List.length_cons, Nat.succ_lt_succ_iff] at hfuel
      simp only [Grammar.takeAll, hspan, hoption, bind, Except.bind]
      rw [htake fuel _ hfuel]
      rfl

/-- A program without operands reads arguments that set something as what they set. -/
theorem parse_of_sets (hg : g.HasProperNames) (hoperand : g.operand = .nothing)
    (h : List.Forall₂ g.Sets arguments entries) :
    g.parse arguments = .ok ⟨Assoc.ofEntries entries, none, [], true⟩ := by
  obtain ⟨roles, hroles, htake⟩ := takeAll_of_sets hg hoperand h
  have hall := htake (2 * arguments.length + 1) ⟨[], none, [], true⟩ (by omega)
  simp only [Grammar.parse, hroles, hall, hoperand, bind, Except.bind]
  rfl

end Settings

/-! ## Programs with commands -/

section Commands

variable {g : Grammar} {arguments : List Text} {roles : List (Text × Role)}

/-- Arguments none of which is ambiguous have roles. -/
theorem exists_roles (h : ∀ argument ∈ arguments, ∃ reading, g.interpret argument = .ok reading) :
    ∃ roles, g.roles arguments = .ok roles ∧ roles.map Prod.fst = arguments := by
  induction arguments with
  | nil => exact ⟨[], rfl, rfl⟩
  | cons argument arguments ih =>
    obtain ⟨⟨reading, hreading⟩, hrest⟩ := List.forall_mem_cons.1 h
    obtain ⟨roles, hroles, hsame⟩ := ih hrest
    by_cases hseparator : argument = "--"
    · refine ⟨_, if_pos hseparator, ?_⟩
      rw [List.map_cons, List.map_map]
      exact congrArg _ (List.map_id arguments)
    · cases reading with
      | none =>
        refine ⟨(argument, .operand) :: roles, ?_, by rw [List.map_cons, hsame]⟩
        simp only [Grammar.roles, if_neg hseparator, hreading, hroles, bind, Except.bind]
      | some reading =>
        refine ⟨(argument, .option reading) :: roles, ?_, by rw [List.map_cons, hsame]⟩
        simp only [Grammar.roles, if_neg hseparator, hreading, hroles, bind, Except.bind]

/-- An option that no name of a grammar begins like is not ambiguous. -/
theorem interpret_of_foreign {beginning argument : Text}
    (hargument : argument = beginning ∨ ∃ value, argument = beginning ++ .scalar '=' :: value)
    (hlong : isLongName beginning) (hequals : .scalar '=' ∉ beginning)
    (hforeign : ∀ name ∈ Assoc.keys g.names, Text.startsWith name beginning = false) :
    ∃ reading, g.interpret argument = .ok reading := by
  have hcandidates : g.candidates argument = [] := by
    have hprefix : beginning <+: argument := by
      rcases hargument with rfl | ⟨value, rfl⟩
      · exact List.prefix_rfl
      · exact List.prefix_append _ _
    have hlong' : isLongName argument := Text.startsWith_iff.2 ((Text.startsWith_iff.1 hlong).trans hprefix)
    have hnone : g.names.filter (fun entry => Text.startsWith entry.1 beginning) = [] := by
      rw [List.filter_eq_nil_iff]
      intro entry hmem
      rw [Bool.not_eq_true]
      exact hforeign entry.1 (List.mem_map_of_mem hmem)
    rw [Grammar.candidates, if_pos hlong']
    rcases hargument with rfl | ⟨value, rfl⟩
    · rw [Text.splitFirst?_eq_none_iff.2 hequals]
      exact List.map_eq_nil_iff.2 hnone
    · rw [Text.splitFirst?_eq_some_iff.2 ⟨hequals, rfl⟩]
      exact List.map_eq_nil_iff.2 hnone
  simp only [Grammar.interpret, hcandidates]
  repeat' split
  all_goals exact ⟨_, rfl⟩

theorem takeOperand_command {key command : Text} {commands : List Text} (hoperand : g.operand = .command key commands)
    (hcommand : command ∈ commands) (s : Parsed) (hopen : s.operandOpen) :
    g.takeOperand s ((command, .operand) :: roles) =
      .ok ({ s with command := some (command, roles.map Prod.fst), operandOpen := false }, roles.length + 1) := by
  have hlength : operandLength (.command key commands) ((command, .operand) :: roles) = roles.length + 1 := rfl
  have htaken : ((command, Role.operand) :: roles).take (roles.length + 1) = (command, .operand) :: roles :=
    List.take_of_length_le (Nat.le_refl _)
  simp only [Grammar.takeOperand, hopen, hoperand, hlength, htaken, List.map_cons, List.contains_iff_mem.2 hcommand,
    Bool.not_true, Bool.false_eq_true, if_false, if_true]

theorem takeOperand_closed {s : Parsed} (hclosed : s.operandOpen = false) (arguments : List (Text × Role)) :
    g.takeOperand s arguments = .ok (s, 0) := by
  rw [Grammar.takeOperand, hclosed]
  rfl

theorem takeAll_nil {s : Parsed} (hclosed : s.operandOpen = false) (fuel : Nat) : g.takeAll fuel s [] = .ok s := by
  cases fuel with
  | zero => rfl
  | succ fuel =>
    simp only [Grammar.takeAll, List.span_eq_takeWhile_dropWhile, List.takeWhile_nil, List.dropWhile_nil,
      takeOperand_closed hclosed, bind, Except.bind, List.drop_nil, List.map_nil, List.append_nil]

/-- The name of a command takes all that follows, whether there are options in it or not. -/
theorem takeAll_command {key command : Text} {commands : List Text} (hoperand : g.operand = .command key commands)
    (hcommand : command ∈ commands) (fuel : Nat) :
    g.takeAll (fuel + 1) ⟨[], none, [], true⟩ ((command, .operand) :: roles) =
      .ok ⟨[], some (command, roles.map Prod.fst), [], false⟩ := by
  have htake : g.takeOperand ⟨[], none, [], true⟩ ((command, .operand) :: roles) =
      .ok (⟨[], some (command, roles.map Prod.fst), [], false⟩, roles.length + 1) :=
    takeOperand_command hoperand hcommand _ rfl
  have hdrop : ((command, Role.operand) :: roles).drop (roles.length + 1) = [] :=
    List.drop_of_length_le (Nat.le_refl _)
  have hspan : ((command, Role.operand) :: roles).span (fun a => !a.2.isOption) =
      ((command, .operand) :: roles.takeWhile (fun a => !a.2.isOption), roles.dropWhile fun a => !a.2.isOption) :=
    List.span_eq_takeWhile_dropWhile ..
  rw [Grammar.takeAll, hspan]
  cases roles.dropWhile fun a => !a.2.isOption with
  | nil => simp only [htake, hdrop, bind, Except.bind, List.map_nil, List.append_nil]
  | cons next back =>
    simp only [htake, hdrop, bind, Except.bind, Nat.succ_ne_zero, if_false]
    exact takeAll_nil rfl fuel

/-- A program with commands leaves to a command everything behind its name. -/
theorem parse_command {key command : Text} {commands : List Text} (hoperand : g.operand = .command key commands)
    (hcommand : command ∈ commands) (hdash : Text.startsWith command "-" = false)
    (h : ∀ argument ∈ arguments, ∃ reading, g.interpret argument = .ok reading) :
    g.parse (command :: arguments) = .ok ⟨[], some (command, arguments), [], false⟩ := by
  obtain ⟨roles, hroles, hsame⟩ := exists_roles h
  have hseparator : command ≠ "--" := by
    rintro rfl
    revert hdash
    decide
  have hall : g.roles (command :: arguments) = .ok ((command, .operand) :: roles) := by
    have hinterpret : g.interpret command = .ok none := by
      rw [Grammar.interpret, hdash]
      rfl
    simp only [Grammar.roles, if_neg hseparator, hinterpret, hroles, bind, Except.bind]
  simp only [Grammar.parse, hall, takeAll_command hoperand hcommand, hsame, hoperand, bind, Except.bind]

end Commands

end ModuleCatalog.CommandLine
