import ModuleCatalog.Log.Lineage

/-!
# Loggers below the root

The root of the package is above every logger whose name goes on from that of the root with a dot and no second dot
right behind it, whichever other loggers have been asked for.
-/

namespace ModuleCatalog.Log

/-- Whether a name is that of the root, or goes on from it with a single dot. -/
def IsNested (name : Text) : Prop :=
  name = root ∨ ∃ rest : Text, name = root ++ .scalar '.' :: rest ∧ rest.head? ≠ some (.scalar '.')

theorem isNested_loggerName {name : Option Text} (h : (name.getD []).head? ≠ some (.scalar '.')) :
    IsNested (loggerName name) := by
  match name with
  | none | some [] => exact .inl rfl
  | some (c :: rest) =>
    have hname : loggerName (some (c :: rest)) = root ++ .scalar '.' :: c :: rest := by
      rw [loggerName, List.append_assoc]
      · rfl
      · exact nofun
    exact .inr ⟨c :: rest, hname, h⟩

/-! ## Prefixes that are seen -/

theorem prefixesOfReverse_dot_root : prefixesOfReverse (.scalar '.' :: root.reverse) = [root] := by
  decide

/-- From the end of a nested name, the root is seen, and what else is seen is nested as well. -/
theorem prefixesOfReverse_nested {behind : Text} (h : behind.getLast? ≠ some (.scalar '.')) :
    root ∈ prefixesOfReverse (behind ++ .scalar '.' :: root.reverse) ∧
      ∀ before ∈ prefixesOfReverse (behind ++ .scalar '.' :: root.reverse), IsNested before := by
  have hbase : root ∈ prefixesOfReverse (.scalar '.' :: root.reverse) ∧
      ∀ before ∈ prefixesOfReverse (.scalar '.' :: root.reverse), IsNested before := by
    rw [prefixesOfReverse_dot_root]
    exact ⟨List.mem_singleton_self root, fun before hbefore => .inl (List.mem_singleton.1 hbefore)⟩
  -- The induction takes away one character of the name, or a dot and the character before it.
  induction behind using prefixesOfReverse.induct with
  | case1 => exact hbase
  | case2 c =>
    have hc : c ≠ .scalar '.' := fun heq => h (congrArg some heq)
    have hnext : prefixesOfReverse ([c] ++ .scalar '.' :: root.reverse) =
        prefixesOfReverse (.scalar '.' :: root.reverse) := if_neg hc
    rwa [hnext]
  | case3 d behind ih =>
    rw [List.getLast?_cons_cons] at h
    have hseen : prefixesOfReverse (.scalar '.' :: d :: behind ++ .scalar '.' :: root.reverse) =
        (d :: behind ++ .scalar '.' :: root.reverse).reverse ::
          prefixesOfReverse (behind ++ .scalar '.' :: root.reverse) := if_pos rfl
    have hbehind : behind.getLast? ≠ some (.scalar '.') := by
      cases behind with
      | nil => exact nofun
      | cons e behind => rwa [List.getLast?_cons_cons] at h
    have hfirst : IsNested (d :: behind ++ .scalar '.' :: root.reverse).reverse := by
      refine .inr ⟨(d :: behind).reverse, by simp, ?_⟩
      rwa [List.head?_reverse]
    obtain ⟨hroot, hnested⟩ := ih hbehind
    rw [hseen]
    exact ⟨List.mem_cons_of_mem _ hroot, List.forall_mem_cons.2 ⟨hfirst, hnested⟩⟩
  | case4 c d behind hc ih =>
    rw [List.getLast?_cons_cons] at h
    have hnext : prefixesOfReverse (c :: d :: behind ++ .scalar '.' :: root.reverse) =
        prefixesOfReverse (d :: behind ++ .scalar '.' :: root.reverse) := if_neg hc
    rw [hnext]
    exact ih h

/-! ## Loggers above -/

/-- A nested logger other than the root has a parent, which is nested. -/
theorem exists_parent?_eq {names : List Text} (hroot : root ∈ names) {name : Text} (hname : IsNested name)
    (hne : name ≠ root) : ∃ parent, parent? names name = some parent ∧ IsNested parent := by
  obtain ⟨rest, rfl, hrest⟩ := hname.resolve_left hne
  have hlast : rest.reverse.getLast? ≠ some (.scalar '.') := by rwa [List.getLast?_reverse]
  obtain ⟨hseen, hnested⟩ := prefixesOfReverse_nested hlast
  have hreverse : (root ++ .scalar '.' :: rest).reverse = rest.reverse ++ .scalar '.' :: root.reverse := by simp
  rw [parent?, hreverse]
  have hfound : ((prefixesOfReverse (rest.reverse ++ .scalar '.' :: root.reverse)).find?
      fun before => decide (before ∈ names)).isSome := by
    rw [List.find?_isSome]
    exact ⟨root, hseen, decide_eq_true hroot⟩
  obtain ⟨parent, hparent⟩ := Option.isSome_iff_exists.1 hfound
  exact ⟨parent, hparent, hnested parent (List.mem_of_find?_eq_some hparent)⟩

/-- Once the root has been asked for, it is above every nested logger. -/
theorem root_mem_lineage {names : List Text} (hroot : root ∈ names) {name : Text} (hname : IsNested name) :
    root ∈ lineage names name := by
  fun_induction lineage names name with
  | case1 name hnone =>
    by_cases hne : name = root
    · rw [hne]
      exact List.mem_singleton_self root
    · obtain ⟨parent, hparent, -⟩ := exists_parent?_eq hroot hname hne
      cases hnone.symm.trans hparent
  | case2 name parent hparent ih =>
    by_cases hne : name = root
    · rw [hne]
      exact List.mem_cons_self
    · obtain ⟨other, hother, hnested⟩ := exists_parent?_eq hroot hname hne
      obtain rfl := Option.some.inj (hparent.symm.trans hother)
      exact List.mem_cons_of_mem _ (ih hnested)

end ModuleCatalog.Log
