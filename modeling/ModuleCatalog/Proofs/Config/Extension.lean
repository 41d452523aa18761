import ModuleCatalog.Proofs.Config.Settings
import ModuleCatalog.Proofs.Discovery.Listing
import ModuleCatalog.Proofs.Text.Literal

/-!
# The extension of source files

Of the extension in a configuration file the blanks at its two ends are left out, and then the dots in front. What is
left begins with no dot and ends in no blank. It begins with a blank if one stands right behind the dots; exactly then
it is not the same when it is read once more.
-/

namespace ModuleCatalog.Config

/-! ## Blanks and dots -/

/-- Whether a blank stands right behind the dots in front of a text. -/
def HasBlankBehindDots (t : Text) : Prop :=
  ∃ dots blank rest, t.trim = dots ++ blank :: rest ∧ (∀ c ∈ dots, c = .scalar '.') ∧ blank.isBlank

section Texts

variable {t : Text}

theorem trim_eq_append_extensionOf (t : Text) :
    ∃ dots, (∀ c ∈ dots, c = .scalar '.') ∧ t.trim = dots ++ extensionOf t := by
  refine ⟨t.trim.takeWhile (· = .scalar '.'), fun c hc => ?_, List.takeWhile_append_dropWhile.symm⟩
  simpa using List.mem_takeWhile_imp hc

theorem head?_extensionOf (t : Text) : (extensionOf t).head? ≠ some (.scalar '.') := by
  intro h
  have hnot := List.head?_dropWhile_not (fun c => decide (c = .scalar '.')) t.trim
  rw [← extensionOf, h] at hnot
  simp at hnot

theorem isBlank_getLast?_extensionOf {c : CodePoint} (h : (extensionOf t).getLast? = some c) : c.isBlank = false := by
  obtain ⟨dots, -, htrim⟩ := trim_eq_append_extensionOf t
  apply (Text.trim_eq_self_iff.1 (Text.trim_trim t)).2
  rw [htrim, List.getLast?_append, h, Option.some_or]

theorem length_trim_le (t : Text) : t.trim.length ≤ t.length := by
  have hright : t.trim <+: t.trimLeft := List.rdropWhile_prefix _ _
  exact hright.length_le.trans (List.dropWhile_suffix _).length_le

/-- The extension is what follows the dots, whatever is behind them. -/
theorem extensionOf_eq {dots rest : Text} (htrim : t.trim = dots ++ rest) (hdots : ∀ c ∈ dots, c = .scalar '.')
    (hrest : rest.head? ≠ some (.scalar '.')) : extensionOf t = rest := by
  rw [extensionOf, htrim]
  apply Text.dropWhile_append (fun c hc => decide_eq_true (hdots c hc))
  intro c hc
  rw [decide_eq_false_iff_not]
  rintro rfl
  exact hrest hc

theorem isTrimmed_extensionOf_iff : (extensionOf t).IsTrimmed ↔ ¬ HasBlankBehindDots t := by
  obtain ⟨dots, hdots, htrim⟩ := trim_eq_append_extensionOf t
  constructor
  · rintro ⟨hhead, -⟩ ⟨dots', blank, rest, htrim', hdots', hblank⟩
    have hrest : extensionOf t = blank :: rest := by
      apply extensionOf_eq htrim' hdots'
      intro hdot
      rw [Option.some.inj hdot] at hblank
      revert hblank
      decide
    rw [hhead blank (by rw [hrest, List.head?_cons])] at hblank
    cases hblank
  · intro hnot
    refine ⟨fun c hc => ?_, fun c => isBlank_getLast?_extensionOf⟩
    rw [Bool.eq_false_iff]
    intro hblank
    obtain ⟨rest, hrest⟩ := List.head?_eq_some_iff.1 hc
    exact hnot ⟨dots, c, rest, by rw [htrim, hrest], hdots, hblank⟩

/-- An extension is its own extension exactly if no blank is in front of it. -/
theorem extensionOf_extensionOf_iff : extensionOf (extensionOf t) = extensionOf t ↔ (extensionOf t).IsTrimmed := by
  constructor
  · intro hsame
    obtain ⟨dots, -, htrim⟩ := trim_eq_append_extensionOf (extensionOf t)
    rw [hsame] at htrim
    have hlength : dots.length + (extensionOf t).length ≤ (extensionOf t).length := by
      rw [← List.length_append, ← htrim]
      exact length_trim_le _
    have hdots : dots = [] := List.eq_nil_of_length_eq_zero (by omega)
    rw [← Text.trim_eq_self_iff, htrim, hdots, List.nil_append]
  · intro htrimmed
    have htrim : (extensionOf t).trim = [] ++ extensionOf t := Text.trim_eq_self_iff.2 htrimmed
    exact extensionOf_eq htrim (List.forall_mem_nil _) (head?_extensionOf t)

end Texts

/-! ## Stored extensions -/

section Stored

variable {fs : FileSystem} {path : Path} {d : Yaml.Document} {entries : List (Yaml.Value × Yaml.Value)} {v : Yaml.Value}
  {t : Text} {c : Config}

theorem IsTextOf.unique {s : Text} (hs : IsTextOf v s) (ht : IsTextOf v t) : s = t :=
  Option.some.inj ((isTextOf_iff.1 hs).symm.trans (isTextOf_iff.1 ht))

theorem isExtensionOf_iff_of_isTextOf {default extension : Text} (htext : IsTextOf v t) :
    IsExtensionOf default v extension ↔ extension = extensionOf t ∧ extensionOf t ≠ [] := by
  constructor
  · rintro (_ | ⟨hs, hne⟩)
    · cases htext
    · obtain rfl := hs.unique htext
      exact ⟨rfl, hne⟩
  · rintro ⟨rfl, hne⟩
    exact .text htext hne

/-- The extension that is loaded from a text is the one of this text, and is not empty. -/
theorem HoldsMapping.extension_eq (hfile : HoldsMapping fs path d entries)
    (hentry : Yaml.entry? "source_extension" entries = some v) (htext : IsTextOf v t) (hload : load fs path = .ok c) :
    c.extension = extensionOf t ∧ extensionOf t ≠ [] := by
  rw [hfile.load_eq, ofEntries_eq_ok_iff] at hload
  have hgives := hload.extension
  rwa [hentry, gives_some_iff, isExtensionOf_iff_of_isTextOf htext] at hgives

/-- A file that gives a text to the extension alone. -/
theorem HoldsMapping.load_extension_iff (hfile : HoldsMapping fs path d [(.text "source_extension", v)])
    (htext : IsTextOf v t) : load fs path = .ok c ↔ c = { extension := extensionOf t } ∧ extensionOf t ≠ [] := by
  rw [hfile.load_eq, ofEntries_eq_ok_iff]
  constructor
  · rintro ⟨hextension, hexcluded, houtput, hchunkSize, hworkers⟩
    obtain ⟨extension, excluded, output, chunkSize, workers⟩ := c
    obtain ⟨rfl, hne⟩ := (isExtensionOf_iff_of_isTextOf htext).1 (gives_some_iff.1 hextension)
    obtain rfl := gives_none_iff.1 hexcluded
    obtain rfl := gives_none_iff.1 houtput
    obtain rfl := gives_none_iff.1 hchunkSize
    obtain rfl := gives_none_iff.1 hworkers
    exact ⟨rfl, hne⟩
  · rintro ⟨rfl, hne⟩
    exact ⟨.present (.text htext hne), .absent, .absent, .absent, .absent⟩

theorem candidate_eq_singleton_iff {source : Path} :
    Discovery.candidate c source = [source] ↔ ∃ name, source.name = name ++ .scalar '.' :: c.extension := by
  have hsuffix : c.suffix <:+ source.name ↔ ∃ name, source.name = name ++ .scalar '.' :: c.extension :=
    exists_congr fun _ => eq_comm
  rw [← hsuffix, ← Text.endsWith_iff, Discovery.candidate]
  split <;> simp_all

/-- Every extension that is accepted is stored without the blanks at its ends and the dots in front: it is not empty,
begins with no dot and ends in no blank, and the files that end in a dot and this extension are source files. It begins
with a blank exactly if one stands right behind the dots of the text; unless it does, it is stored unchanged when it is
given once more, and if it does, never. -/
theorem extension_of_load (hfile : HoldsMapping fs path d entries)
    (hentry : Yaml.entry? "source_extension" entries = some v) (htext : IsTextOf v t) (hload : load fs path = .ok c) :
    (∃ dots, (∀ a ∈ dots, a = .scalar '.') ∧ t.trim = dots ++ c.extension) ∧
    c.extension ≠ [] ∧ c.extension.head? ≠ some (.scalar '.') ∧
    (∀ a, c.extension.getLast? = some a → a.isBlank = false) ∧
    (c.extension.IsTrimmed ↔ ¬ HasBlankBehindDots t) ∧
    (∀ fs' path' d' v', HoldsMapping fs' path' d' [(.text "source_extension", v')] → IsTextOf v' c.extension →
      (load fs' path' = .ok { extension := c.extension } ↔ c.extension.IsTrimmed)) ∧
    (∀ fs' path' d' entries' v' c', HoldsMapping fs' path' d' entries' →
      Yaml.entry? "source_extension" entries' = some v' → IsTextOf v' c.extension → load fs' path' = .ok c' →
      (c'.extension = c.extension ↔ c.extension.IsTrimmed)) ∧
    ∀ source, Discovery.candidate c source = [source] ↔ ∃ name, source.name = name ++ .scalar '.' :: c.extension := by
  obtain ⟨hextension, hne⟩ := hfile.extension_eq hentry htext hload
  refine ⟨?_, ?_, ?_, ?_, ?_, ?_, ?_, fun source => candidate_eq_singleton_iff⟩
  all_goals rw [hextension]
  · exact trim_eq_append_extensionOf t
  · exact hne
  · exact head?_extensionOf t
  · exact fun a => isBlank_getLast?_extensionOf
  · exact isTrimmed_extensionOf_iff
  · intro fs' path' d' v' hfile' htext'
    rw [hfile'.load_extension_iff htext', ← extensionOf_extensionOf_iff]
    constructor
    · rintro ⟨hsame, -⟩
      exact (congrArg Config.extension hsame).symm
    · intro hsame
      rw [hsame]
      exact ⟨rfl, hne⟩
  · intro fs' path' d' entries' v' c' hfile' hentry' htext' hload'
    obtain ⟨hextension', -⟩ := hfile'.extension_eq hentry' htext' hload'
    rw [hextension', extensionOf_extensionOf_iff]

end Stored

/-- A directory whose configuration file gives a quoted text to the extension alone. -/
def extensionTree (t : Text) : FileSystem :=
  configTree (Utf8.encodeLossy ("source_extension: '" ++ t ++ "'"))

theorem holdsMapping_extensionTree {t : Text}
    (htext : HasText (Utf8.encodeLossy ("source_extension: '" ++ t ++ "'")) ("source_extension: '" ++ t ++ "'"))
    (htokens : Yaml.TokenStream.ofText ("source_extension: '" ++ t ++ "'") =
      ⟨settingTokens "source_extension" t, none⟩) :
    HoldsMapping (extensionTree t) "." (settingDocument "source_extension" t) [(.text "source_extension", .text t)] :=
  holdsMapping_of_settingTokens (by decide) htext htokens

theorem holdsMapping_inc : HoldsMapping (extensionTree "inc") "." (settingDocument "source_extension" "inc")
    [(.text "source_extension", .text "inc")] :=
  holdsMapping_extensionTree ⟨rfl, by decide⟩ rfl

/-- A dot in front of the extension does not count, and what is stored is stored again. -/
theorem extension_of_load_inc :
    HoldsMapping (extensionTree ".inc") "." (settingDocument "source_extension" ".inc")
      [(.text "source_extension", .text ".inc")] ∧
    IsTextOf (.text ".inc") ".inc" ∧ load (extensionTree ".inc") "." = .ok { extension := "inc" } ∧
    load (extensionTree "inc") "." = .ok { extension := "inc" } := by
  have hfile : HoldsMapping (extensionTree ".inc") "." (settingDocument "source_extension" ".inc")
      [(.text "source_extension", .text ".inc")] := holdsMapping_extensionTree ⟨rfl, by decide⟩ rfl
  have hload : load (extensionTree ".inc") "." = .ok { extension := "inc" } :=
    (hfile.load_extension_iff (.text _)).2 ⟨rfl, by decide⟩
  obtain ⟨-, -, -, -, -, hagain, -⟩ := extension_of_load hfile rfl (.text _) hload
  exact ⟨hfile, .text _, hload, (hagain _ _ _ _ holdsMapping_inc (.text _)).2 (by decide)⟩

/-- Not every extension is stored without blanks at its ends: a blank behind a dot stays, keeps files of that extension
from being source files, and is left out when the extension is given once more. -/
theorem not_isTrimmed_blankBehindDot :
    load (extensionTree ". php") "." = .ok { extension := " php" } ∧ ¬ Text.IsTrimmed " php" ∧
    load (extensionTree " php") "." = .ok { extension := "php" } ∧
    Discovery.candidate { extension := " php" } "a.php" = [] := by
  have hfile : HoldsMapping (extensionTree ". php") "." (settingDocument "source_extension" ". php")
      [(.text "source_extension", .text ". php")] := holdsMapping_extensionTree ⟨rfl, by decide⟩ rfl
  have hagain : HoldsMapping (extensionTree " php") "." (settingDocument "source_extension" " php")
      [(.text "source_extension", .text " php")] := holdsMapping_extensionTree ⟨rfl, by decide⟩ rfl
  exact ⟨(hfile.load_extension_iff (.text _)).2 ⟨rfl, by decide⟩, by decide,
    (hagain.load_extension_iff (.text _)).2 ⟨rfl, by decide⟩, rfl⟩

end ModuleCatalog.Config
