import Mathlib
import ModuleCatalog.Config.Reader
import ModuleCatalog.Proofs.Fallible
import ModuleCatalog.Proofs.Text.Literal

/-!
# What a configuration file can lead to

A file is read as a configuration with positive numbers or fails. A failure is reported to the user unless the bytes
are no UTF-8, a YAML value has the wrong form for its type, or the output begins with a home directory that nobody
knows.
-/

namespace ModuleCatalog

/-! ## Home directories -/

namespace FileSystem

end FileSystem

namespace Config

open FileSystem

/-! ## Numbers -/

section Entries

variable {fs : FileSystem} {d : Yaml.Document} {c c' : Config} {value : Option Yaml.Value}

end Entries

/-- Bytes that hold a text other than blanks. -/
structure HasText (content : Bytes) (t : Text) : Prop where
  decoded : textOf content = .ok t
  notBlank : t.trim.isEmpty = false

section Escaping

variable {fs : FileSystem} {d : Yaml.Document} {c : Config} {failure : Failure}

end Escaping

section Loading

variable {fs : FileSystem} {path file : Path} {content : Bytes}

theorem isPresent_of_read (h : fs.read path = .ok content) : fs.isPresent path = .ok true := by
  obtain ⟨place, hplace, h⟩ := bind_eq_ok_iff.1 h
  cases place with
  | entry location node => simp only [isPresent, node?, status, hplace, bind, Except.bind, Except.map, Option.isSome_some]
  | free directory name => cases h

/-- What a file leads to whose bytes are some text. -/
theorem load_of_textOf (hfile : locate fs path = .ok file) (hread : fs.read file = .ok content) :
    load fs path =
      match textOf content with
      | .ok t => ofText fs file.name t
      | .error cause => .error (.undecodable cause) := by
  simp only [load, hfile, isPresent_of_read hread, readText, hread, Except.mapError, bind, Except.bind, Bool.not_true,
    Bool.false_eq_true, if_false]
  cases textOf content <;> rfl

end Loading

/-! ## Files with one key -/

/-- The keys of a configuration file. -/
def knownKeys : List Text := ["source_extension", "exclude_dirs", "output", "chunk_size", "workers"]

/-- The tokens of a mapping that gives a quoted text to one key. -/
def settingTokens (key value : Text) : List Yaml.Token :=
  [.blockMappingStart, .key, .scalar key true, .value, .scalar value false, .blockEnd, .streamEnd]

theorem parse_of_settingTokens {t key value : Text} (hkey : key ∈ knownKeys)
    (h : Yaml.TokenStream.ofText t = ⟨settingTokens key value, none⟩) :
    Yaml.Document.parse t = .ok ⟨.collection 0, [(0, .mapping [(.text key, .text value)])]⟩ := by
  have hnodes : Yaml.Nodes.ofText t = .ok (some 0, #[⟨.mapping, .mapping [(1, 2)]⟩, ⟨.text, .scalar key⟩,
      ⟨.text, .scalar value⟩]) := by
    rw [Yaml.Nodes.ofText, h]
    simp only [knownKeys, List.mem_cons, List.not_mem_nil, or_false] at hkey
    rcases hkey with rfl | rfl | rfl | rfl | rfl <;> rfl
  rw [Yaml.Document.parse, hnodes]
  cbv

/-- A directory with a configuration file. -/
def configTree (content : Bytes) : FileSystem :=
  ⟨.directory [(fileName, .file content 0o644)], [], ⟨none, []⟩⟩

theorem locate_configTree (content : Bytes) : locate (configTree content) "." = .ok "/.modmanifest.yml" := by cbv

theorem read_configTree (content : Bytes) : (configTree content).read "/.modmanifest.yml" = .ok content := by cbv

end Config

end ModuleCatalog
