import Mathlib.Data.List.Nodup
import ModuleCatalog.Proofs.Artifact.RoundTrip
import ModuleCatalog.Proofs.Json.Characters
import ModuleCatalog.Proofs.Text.Unicode
import ModuleCatalog.Service.Response

/-!
# Responses that are sent

A value without floating-point numbers and surrogates is sent as it is, with the status that is meant for it. A
value with any other status than that of an unexpected failure has been sent as it is.
-/

namespace ModuleCatalog

namespace Json

variable {alphabet : Alphabet}

mutual

theorem isFinite_of_isPlain : ∀ v : Json, IsPlain alphabet v → v.isFinite
  | .null, _ | .boolean _, _ | .integer _, _ | .string _, _ => rfl
  | .array items, h => areFinite_of_arePlain items h
  | .object members, h => haveFinite_of_havePlain members h.1

theorem areFinite_of_arePlain : ∀ items : List Json, ArePlain alphabet items → areFinite items
  | [], _ => rfl
  | item :: items, ⟨hitem, hitems⟩ => by
    rw [areFinite, isFinite_of_isPlain item hitem, areFinite_of_arePlain items hitems]
    rfl

theorem haveFinite_of_havePlain : ∀ members : List (Text × Json), HavePlain alphabet members → haveFinite members
  | [], _ => rfl
  | (_, value) :: members, ⟨_, hvalue, hmembers⟩ => by
    rw [haveFinite, isFinite_of_isPlain value hvalue, haveFinite_of_havePlain members hmembers]
    rfl

end

end Json

namespace Service.Response

theorem ofJson_of_isPlain (status : Nat) {value : Json} (hplain : value.IsPlain .unicode)
    (h : value.AllStrings (Text.isUnicode ·)) : ofJson status value = ⟨status, none, .value value⟩ := by
  have hunicode : (value.compact .unicode).isUnicode :=
    (Json.isUnicode_written_iff hplain (Json.Layout.all_dense _) 0).2 h
  rw [ofJson, Json.isFinite_of_isPlain value hplain, hunicode]
  rfl

/-- A message without surrogates is sent. -/
theorem detail_of_isUnicode (status : Nat) {message : Text} (h : message.isUnicode) :
    detail status message = ⟨status, none, .value (.object [("detail", .string message)])⟩ := by
  apply ofJson_of_isPlain
  · exact ⟨⟨Json.isReadable_unicode _, Json.isReadable_unicode _, trivial⟩, List.nodup_singleton _⟩
  · exact ⟨Text.isUnicode_ofString _, h, trivial⟩

end Service.Response

end ModuleCatalog
