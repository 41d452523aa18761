import ModuleCatalog.Proofs.Artifact.Writable
import ModuleCatalog.Proofs.Service.Generation
import ModuleCatalog.Proofs.Service.Target

/-!
# Looking categories up

The name of a category is the last part of the path of a request, where it may be escaped. A name with a slash in it
leads to no route, and slashes at its end lead back to the route without them. So the modules of every bucket are
found under its name, but not those of a bucket without a name.
-/

namespace ModuleCatalog.Service

open FileSystem

/-! ## Routes -/

namespace Route

theorem isFixed_eq_false {start path fixed : Text} (hstart : start <+: path) (h : ¬ start <+: fixed ++ "\n") :
    isFixed path fixed = false := by
  rw [isFixed, Bool.or_eq_false_iff, decide_eq_false_iff_not, decide_eq_false_iff_not]
  constructor
  · rintro rfl
    exact h (hstart.trans (List.prefix_append ..))
  · rintro rfl
    exact h hstart

/-- What a path below that of the categories leads to. -/
theorem ofPath?_append (name : Text) : ofPath? ("/categories/" ++ name) =
    if name.isEmpty || name.contains (.scalar '/') then none else some (.category name) := by
  have hstart : Text.ofString "/categories/" <+: Text.ofString "/categories/" ++ name := List.prefix_append ..
  have hpages : pages.any (isFixed ("/categories/" ++ name)) = false := by
    rw [List.any_eq_false]
    intro fixed hfixed
    rw [isFixed_eq_false hstart]
    · exact Bool.false_ne_true
    · revert fixed
      decide
  rw [ofPath?, isFixed_eq_false hstart (by decide), isFixed_eq_false hstart (by decide),
    isFixed_eq_false hstart (by decide), hpages, Text.dropLiteral?_append]
  rfl

theorem ofPath?_categories : ofPath? "/categories" = some .categories := by decide

theorem withoutSlash?_eq_none {path : Text} (h : path.getLast? ≠ some (.scalar '/')) : withoutSlash? path = none := by
  have hkept : path.reverse.dropWhile (· = .scalar '/') = path.reverse := by
    apply Text.dropWhile_eq_self
    intro c hc
    rw [List.head?_reverse] at hc
    have hne : c ≠ .scalar '/' := fun heq => h (heq ▸ hc)
    simpa using hne
  rw [withoutSlash?, hkept, List.reverse_reverse]
  exact if_pos (.inr rfl)

theorem withoutSlash?_append {short : Text} (hne : short ≠ []) (hlast : short.getLast? ≠ some (.scalar '/'))
    (count : Nat) : withoutSlash? (short ++ List.replicate (count + 1) (CodePoint.scalar '/')) =
      (ofPath? short).map fun _ => short := by
  have hshorter : (short ++ List.replicate (count + 1) (CodePoint.scalar '/')).reverse.dropWhile (· = .scalar '/') =
      short.reverse := by
    rw [List.reverse_append, List.reverse_replicate]
    apply Text.dropWhile_append
    · intro c hc
      simpa using List.eq_of_mem_replicate hc
    · intro c hc
      rw [List.head?_reverse] at hc
      have hne : c ≠ .scalar '/' := fun heq => hlast (heq ▸ hc)
      simpa using hne
  have hpath : short ++ List.replicate (count + 1) (CodePoint.scalar '/') ≠ "/" := by
    intro heq
    have hlength := congrArg List.length heq
    rw [List.length_append, List.length_replicate] at hlength
    have hone : (Text.ofString "/").length = 1 := rfl
    have hpos := List.length_pos_iff.2 hne
    omega
  have hlonger : short ≠ short ++ List.replicate (count + 1) (CodePoint.scalar '/') := by
    intro heq
    have hlength := congrArg List.length heq
    rw [List.length_append, List.length_replicate] at hlength
    omega
  rw [withoutSlash?, hshorter, List.reverse_reverse]
  exact if_neg (not_or.2 ⟨hpath, hlonger⟩)

end Route

/-! ## Requests for one category -/

/-- Whether a request asks for the category of a name, which is escaped in its target but for some marks. -/
structure Request.LooksUp (r : Request) (name : Text) : Prop where
  method : r.method = "GET"
  target : ∃ others : Text, others.IsUnmarked ∧
    r.target = Target.received ("/categories/" ++ percentEncode others name)

theorem Request.LooksUp.target_eq {r : Request} {name : Text} (h : r.LooksUp name) (hname : name.isUnicode) :
    r.target = ⟨"/categories/" ++ name, none⟩ := by
  obtain ⟨others, hothers, htarget⟩ := h.target
  rw [htarget]
  exact received_percentEncode ⟨by decide, by decide⟩ hothers hname

section Requests

variable {s : Service} {fs : FileSystem} {r : Request} {name : Text}

theorem answer_of_ofPath?_eq_none (hmethod : r.method ≠ "HEAD") (h : Route.ofPath? r.target.path = none) :
    s.answer fs r = (fs, match Route.withoutSlash? r.target.path with
      | some path => .redirect r.origin { r.target with path }
      | none => .notFound) := by
  simp only [answer, respond, h, if_neg hmethod]
  cases Route.withoutSlash? r.target.path <;> rfl

theorem answer_lookup (h : r.LooksUp name) (hunicode : name.isUnicode) (hname : name ≠ [])
    (hslash : CodePoint.scalar '/' ∉ name) : s.answer fs r = (fs, s.consult fs fun m => lookup m name) := by
  have hroute : r.Asks "GET" (.category name) := by
    refine ⟨h.method, ?_⟩
    rw [h.target_eq hunicode, Route.ofPath?_append, if_neg]
    simpa [hname] using hslash
  exact answer_of_asks hroute rfl (by decide)

theorem notFound_eq : Response.notFound = ⟨404, none, .value (.object [("detail", .string "Not Found")])⟩ :=
  Response.detail_of_isUnicode 404 (Text.isUnicode_ofString _)

/-- A name with a slash leads nowhere. -/
theorem answer_slash (h : r.LooksUp name) (hunicode : name.isUnicode) (hslash : CodePoint.scalar '/' ∈ name)
    (hlast : name.getLast? ≠ some (.scalar '/')) : s.answer fs r = (fs, .notFound) := by
  have hmethod : r.method ≠ "HEAD" := by
    rw [h.method]
    decide
  have hnone : Route.ofPath? r.target.path = none := by
    rw [h.target_eq hunicode, Route.ofPath?_append, if_pos]
    simp [hslash]
  have hkept : Route.withoutSlash? r.target.path = none := by
    rw [h.target_eq hunicode]
    apply Route.withoutSlash?_eq_none
    rwa [List.getLast?_append_of_ne_nil _ (List.ne_nil_of_mem hslash)]
  rw [answer_of_ofPath?_eq_none hmethod hnone, hkept]

/-- Slashes at the end of a name lead back to the route without them, if there is one. -/
theorem answer_slashes {short : Text} {count : Nat} (h : r.LooksUp name) (hunicode : name.isUnicode)
    (hpath : "/categories/" ++ name = short ++ List.replicate (count + 1) (CodePoint.scalar '/'))
    (hne : short ≠ []) (hlast : short.getLast? ≠ some (.scalar '/')) : s.answer fs r = (fs,
      match Route.ofPath? short with
      | some _ => .redirect r.origin ⟨short, none⟩
      | none => .notFound) := by
  have hmethod : r.method ≠ "HEAD" := by
    rw [h.method]
    decide
  have htarget := h.target_eq hunicode
  have hslash : name = [] ∨ CodePoint.scalar '/' ∈ name := by
    by_contra hnot
    rw [not_or] at hnot
    have hend := congrArg List.getLast? hpath
    rw [List.getLast?_append_of_ne_nil _ hnot.1, List.getLast?_append_of_ne_nil _ (by simp), List.getLast?_replicate,
      if_neg (Nat.succ_ne_zero count)] at hend
    exact hnot.2 (List.mem_of_getLast? hend)
  have hnone : Route.ofPath? r.target.path = none := by
    rw [htarget, Route.ofPath?_append, if_pos]
    rcases hslash with rfl | hmem
    · rfl
    · simp [hmem]
  have hwithout := Route.withoutSlash?_append hne hlast count
  rw [answer_of_ofPath?_eq_none hmethod hnone, htarget]
  dsimp only
  rw [hpath, hwithout]
  cases Route.ofPath? short <;> rfl

end Requests

/-! ## Lookups -/

section Values

theorem isPlain_attributeJson (a : Attribute) : Json.IsPlain .unicode (attributeJson a) := by
  have hkey : Json.IsPlain .unicode ((a.key.map Json.string).getD .null) := by
    cases a.key with
    | none => trivial
    | some key => exact Json.isReadable_unicode key
  refine ⟨⟨Json.isReadable_unicode _, hkey, Json.isReadable_unicode _, Json.isReadable_unicode _, trivial⟩, ?_⟩
  show ([Text.ofString "key", Text.ofString "value"]).Nodup
  decide

theorem isPlain_categoryJson (c : Category) : Json.IsPlain .unicode (categoryJson c) := by
  have hattributes : Json.ArePlain .unicode (c.attributes.map attributeJson) :=
    Json.arePlain_map fun a _ => isPlain_attributeJson a
  refine ⟨⟨Json.isReadable_unicode _, Json.isReadable_unicode _, Json.isReadable_unicode _, hattributes, trivial⟩, ?_⟩
  show ([Text.ofString "name", Text.ofString "attributes"]).Nodup
  decide

theorem isPlain_moduleJson (m : Module) : Json.IsPlain .unicode (moduleJson m) := by
  have hcategories : Json.ArePlain .unicode (m.categories.map categoryJson) :=
    Json.arePlain_map fun c _ => isPlain_categoryJson c
  refine ⟨⟨Json.isReadable_unicode _, Json.isReadable_unicode _, Json.isReadable_unicode _, Json.isReadable_unicode _,
    Json.isReadable_unicode _, Json.isReadable_unicode _, Json.isReadable_unicode _, hcategories, trivial⟩, ?_⟩
  show ([Text.ofString "namespace", Text.ofString "type_name", Text.ofString "qualified_name",
    Text.ofString "categories"]).Nodup
  decide

theorem allStrings_attributeJson_iff {a : Attribute} :
    Json.AllStrings (Text.isUnicode ·) (attributeJson a) ↔ ∀ piece ∈ a.texts, piece.isUnicode := by
  obtain ⟨key, value⟩ := a
  cases key <;> simp [attributeJson, Attribute.texts, Json.AllStrings, Json.AllMembers, Text.isUnicode_ofString]

theorem allStrings_categoryJson_iff {c : Category} :
    Json.AllStrings (Text.isUnicode ·) (categoryJson c) ↔ ∀ piece ∈ c.texts, piece.isUnicode := by
  simp only [categoryJson, Category.texts, Json.AllStrings, Json.AllMembers, Json.allItems_map_iff,
    allStrings_attributeJson_iff, Text.isUnicode_ofString, true_and, and_true, List.forall_mem_cons,
    List.forall_mem_flatMap]

theorem allStrings_moduleJson {m : Module} (h : ∀ piece ∈ m.texts, piece.isUnicode) :
    Json.AllStrings (Text.isUnicode ·) (moduleJson m) := by
  rw [Module.texts, List.forall_mem_cons, List.forall_mem_cons, List.forall_mem_flatMap] at h
  obtain ⟨henclosing, htype, hcategories⟩ := h
  have hqualified : m.qualifiedName.isUnicode := by
    rw [Module.qualifiedName, Text.isUnicode_append_iff]
    exact ⟨henclosing, htype⟩
  have hitems : Json.AllItems (Text.isUnicode ·) (m.categories.map categoryJson) :=
    Json.allItems_map_iff.2 fun c hc => allStrings_categoryJson_iff.2 (hcategories c hc)
  exact ⟨Text.isUnicode_ofString _, henclosing, Text.isUnicode_ofString _, htype, Text.isUnicode_ofString _, hqualified,
    Text.isUnicode_ofString _, hitems, trivial⟩

end Values

/-- What a lookup shows of a bucket: its name, and its members in order. -/
def bucketJson (m : Manifest) (name : Text) : Json :=
  .object [("name", .string name), ("modules", .array ((m.members name).map moduleJson))]

theorem lookup_of_mem {m : Manifest} {name : Text} (hname : name ∈ m.names) (hunicode : name.isUnicode)
    (hmembers : ∀ found ∈ m.members name, ∀ piece ∈ found.texts, piece.isUnicode) :
    lookup m name = ⟨200, none, .value (bucketJson m name)⟩ := by
  rw [lookup, if_pos (Manifest.contains_iff.2 hname)]
  apply Response.ofJson_of_isPlain
  · have hmodules : Json.ArePlain .unicode ((m.members name).map moduleJson) :=
      Json.arePlain_map fun found _ => isPlain_moduleJson found
    refine ⟨⟨Json.isReadable_unicode _, Json.isReadable_unicode _, Json.isReadable_unicode _, hmodules, trivial⟩, ?_⟩
    show ([Text.ofString "name", Text.ofString "modules"]).Nodup
    decide
  · have hmodules : Json.AllItems (Text.isUnicode ·) ((m.members name).map moduleJson) :=
      Json.allItems_map_iff.2 fun found hfound => allStrings_moduleJson (hmembers found hfound)
    exact ⟨Text.isUnicode_ofString _, hunicode, Text.isUnicode_ofString _, hmodules, trivial⟩

theorem lookup_of_not_mem {m : Manifest} {name : Text} (hname : name ∉ m.names) (hunicode : name.isUnicode) :
    lookup m name = ⟨404, none, .value (.object [("detail", .string ("Unknown category: " ++ name))])⟩ := by
  have hcontains : ¬ m.contains name := mt Manifest.contains_iff.1 hname
  rw [lookup, if_neg hcontains]
  exact Response.detail_of_isUnicode 404 (Text.isUnicode_append_iff.2 ⟨Text.isUnicode_ofString _, hunicode⟩)

/-! ## Generated manifests -/

section Generated

variable {modules : List Module} (hmodules : ∀ m ∈ modules, ∃ t, Source.declaredModule? t = some m)

include hmodules

/-- A service for a file with the artifact of a generated manifest finds the members of its buckets. -/
theorem consult_lookup {s : Service} {fs : FileSystem} {chunkSize : Int} {text : Text} {content : Bytes}
    (hencode : Artifact.encode (Manifest.build modules) chunkSize = .ok text)
    (hcontent : Utf8.encode text = .ok content) (hread : fs.read s.artifact = .ok content) {name : Text}
    (hunicode : name.isUnicode) : s.consult fs (lookup · name) =
      if name ∈ (Manifest.build modules).names then ⟨200, none, .value (bucketJson (Manifest.build modules) name)⟩
      else ⟨404, none, .value (.object [("detail", .string ("Unknown category: " ++ name))])⟩ := by
  have hload := Artifact.load_of_read hencode (Artifact.textOf_of_encode hencode hcontent) hread
  have hisomorphic := (Manifest.build modules).isomorphic_normal
  have hmembers : ∀ found ∈ (Manifest.build modules).normal.members name, ∀ piece ∈ found.texts,
      piece.isUnicode := by
    rw [← hisomorphic.members_eq]
    exact (Artifact.isUnicode_build hmodules).members
  simp only [consult, hload]
  split
  · next hname =>
    rw [hisomorphic.names_eq] at hname
    rw [lookup_of_mem hname hunicode hmembers, bucketJson, bucketJson, hisomorphic.members_eq]
  · next hname =>
    rw [hisomorphic.names_eq] at hname
    exact lookup_of_not_mem hname hunicode

end Generated

/-- After a manifest has been stored, a service for a file with this content lists its buckets with their sizes. The
members of a bucket are found under its name if it has one. Any other name is unknown, or leads back to a route
without the slashes at its end. -/
theorem lookup_after_generation {schedule : Nat → List Nat} {fs₀ : FileSystem} {c : Config} {root : Path}
    {output : Option Path} {stored : Generation.Stored}
    (h : (Generation.storeWith schedule fs₀ c root output).2.outcome = .ok stored) :
    ∃ content before location, AddsParents fs₀ before stored.path.parent ∧
      Replaces before stored.path location content 0o644 (Generation.storeWith schedule fs₀ c root output).1 ∧
      ∀ (s : Service) (fs : FileSystem), fs.read s.artifact = .ok content →
        (∀ r : Request, r.Asks "GET" .categories → s.answer fs r =
          (fs, ⟨200, none, .value (.object [("categories", .array (stored.manifest.names.map fun name =>
            .object [("name", .string name), ("modules", .integer (stored.manifest.members name).length)]))])⟩)) ∧
        ∀ (name : Text) (r : Request), name.isUnicode → r.LooksUp name →
          (name ∈ stored.manifest.names → name ≠ [] → s.answer fs r =
            (fs, ⟨200, none, .value (.object [("name", .string name),
              ("modules", .array ((stored.manifest.members name).map moduleJson))])⟩)) ∧
          (name ∉ stored.manifest.names → name ≠ [] → CodePoint.scalar '/' ∉ name → s.answer fs r =
            (fs, ⟨404, none, .value (.object [("detail", .string ("Unknown category: " ++ name))])⟩)) ∧
          (CodePoint.scalar '/' ∈ name → name.getLast? ≠ some (.scalar '/') → s.answer fs r =
            (fs, ⟨404, none, .value (.object [("detail", .string "Not Found")])⟩)) ∧
          ∀ (base : Text) (count : Nat), name = base ++ List.replicate (count + 1) (CodePoint.scalar '/') →
            base.getLast? ≠ some (.scalar '/') →
            (CodePoint.scalar '/' ∈ base → s.answer fs r =
              (fs, ⟨404, none, .value (.object [("detail", .string "Not Found")])⟩)) ∧
            (CodePoint.scalar '/' ∉ base → s.answer fs r = (fs, .redirect r.origin
              ⟨if base = [] then "/categories" else "/categories/" ++ base, none⟩)) := by
  obtain ⟨modules, hwalk, rfl, hstore⟩ := Generation.storeWith_eq_ok_iff.1 ⟨rfl, h⟩
  obtain ⟨-, files, found, -, hfound, rfl⟩ := Discovery.walkWith_eq_ok_iff.1 hwalk
  obtain ⟨text, content, before, location, hencode, hcontent, hadds, hreplaces⟩ := Artifact.replaces_of_store hstore
  have hmodules := Generation.exists_declaredModule?_of_mem hfound
  refine ⟨content, before, location, hadds, hreplaces, fun s fs hread => ⟨fun r hr => ?_, fun name r hunicode hr => ?_⟩⟩
  · rw [answer_categories hr, consult_listing hmodules hencode hcontent hread]
    rfl
  have hlookup := consult_lookup hmodules hencode hcontent hread hunicode
  refine ⟨fun hname hne => ?_, fun hname hne hslash => ?_, fun hslash hlast => ?_, fun base count hname hlast => ?_⟩
  · have hslash : CodePoint.scalar '/' ∉ name :=
      fun hmem => absurd (Artifact.isModuleChar_of_mem_keys hmodules hname _ hmem) (by decide)
    rw [answer_lookup hr hunicode hne hslash, hlookup, if_pos hname]
    rfl
  · rw [answer_lookup hr hunicode hne hslash, hlookup, if_neg hname]
  · rw [answer_slash hr hunicode hslash hlast, notFound_eq]
  by_cases hbase : base = []
  · subst hbase
    have hpath : "/categories/" ++ name =
        Text.ofString "/categories" ++ List.replicate (count + 1 + 1) (CodePoint.scalar '/') := by
      rw [hname]
      rfl
    refine ⟨fun hmem => absurd hmem List.not_mem_nil, fun _ => ?_⟩
    rw [answer_slashes hr hunicode hpath (by decide) (by decide), Route.ofPath?_categories, if_pos rfl]
  · have hpath : "/categories/" ++ name =
        "/categories/" ++ base ++ List.replicate (count + 1) (CodePoint.scalar '/') := by
      rw [hname, List.append_assoc]
    have hend : (Text.ofString "/categories/" ++ base).getLast? ≠ some (.scalar '/') := by
      rwa [List.getLast?_append_of_ne_nil _ hbase]
    have hanswer := @answer_slashes s fs r name _ count hr hunicode hpath (List.append_ne_nil_of_right_ne_nil _ hbase) hend
    rw [hanswer, Route.ofPath?_append, if_neg hbase]
    refine ⟨fun hmem => ?_, fun hmem => ?_⟩
    · rw [if_pos (by simp [hmem]), notFound_eq]
    · rw [if_neg (by simpa [hbase] using hmem)]

/-- A request for the category of a name. -/
def lookingUp (name : Text) : Request :=
  ⟨"GET", "http://127.0.0.1:8000", Target.received ("/categories/" ++ percentEncode "" name), []⟩

theorem looksUp_lookingUp (name : Text) : (lookingUp name).LooksUp name :=
  ⟨rfl, "", ⟨List.not_mem_nil, List.not_mem_nil⟩, rfl⟩

/-- The category of the one class is found, and no other one. -/
theorem lookup_after_generation_classTree : ∃ after,
    (Generation.storeWith List.range (Generation.classTree []) {} "." (some "m.json")).1 = after ∧
      answer ⟨"m.json"⟩ after (lookingUp "x") = (after, ⟨200, none, .value (.object [("name", .string "x"),
        ("modules", .array [moduleJson Generation.classModule])])⟩) ∧
      (answer ⟨"m.json"⟩ after (lookingUp "y")).2.status = 404 ∧
      (answer ⟨"m.json"⟩ after (lookingUp "x/y")).2.status = 404 ∧
      (answer ⟨"m.json"⟩ after (lookingUp "x/")).2.status = 307 := by
  obtain ⟨-, h⟩ := Generation.storeWith_classTree
  obtain ⟨content, before, location, hadds, hreplaces, hanswers⟩ := lookup_after_generation h
  have hleads := hreplaces.leadsTo_of_not_link (hadds.look_ne_link (Generation.look_classTree_ne_link location))
  have hlookups := (hanswers ⟨"m.json"⟩ _ (hreplaces.read hleads)).2
  obtain ⟨hfound, -⟩ := hlookups "x" _ rfl (looksUp_lookingUp "x")
  obtain ⟨-, hunknown, -⟩ := hlookups "y" _ rfl (looksUp_lookingUp "y")
  obtain ⟨-, -, hslash, -⟩ := hlookups "x/y" _ rfl (looksUp_lookingUp "x/y")
  obtain ⟨-, -, -, hslashes⟩ := hlookups "x/" _ rfl (looksUp_lookingUp "x/")
  refine ⟨_, rfl, hfound (by decide) (by decide), ?_, ?_, ?_⟩
  · rw [hunknown (by decide) (by decide) (by decide)]
  · rw [hslash (by decide) (by decide)]
  · rw [(hslashes "x" 0 rfl (by decide)).2 (by decide)]
    rfl

/-! ## A bucket without a name -/

/-- A source text that declares a class of three categories, of which one has no name. -/
def blankText : Text := "namespace A;/**@module x  y\n*/class B"

def blankModule : Module := ⟨"A", "B", [.bare "x", .bare "", .bare "y"]⟩

def blankTree : FileSystem := ⟨.directory [("a.php", .file (Utf8.encodeLossy blankText) 0o644)], [], ⟨none, []⟩⟩

theorem declaredModule?_blankText : Source.declaredModule? blankText = some blankModule := by
  have hspace : Source.declaredNamespace? blankText =
      some (("A" : Text), ("/**@module x  y\n*/class B" : Text)) := by decide +kernel
  have hmarker : Source.nextMarker? "/**@module x  y\n*/class B" =
      some (("x  y" : Text), ("*/class B" : Text)) := by decide +kernel
  have hlast : Source.nextMarker? "*/class B" = none := by decide +kernel
  simp only [Source.declaredModule?, hspace, Option.bind_eq_bind, Option.bind_some,
    Source.markers_of_some hmarker, Source.markers_of_none hlast]
  decide +kernel

/-- The bucket without a name is listed, but a request for it leads back to the list, and a request for a name that
is not listed may lead to the name without the slash. -/
theorem not_lookup_blankTree : ∃ after stored,
    ((Generation.storeWith List.range blankTree {} "." (some "m.json")).1 = after ∧
      (Generation.storeWith List.range blankTree {} "." (some "m.json")).2.outcome = .ok stored) ∧
    (answer ⟨"m.json"⟩ after listingRequest).2 = ⟨200, none, .value (.object [("categories", .array
      [.object [("name", .string "x"), ("modules", .integer 1)],
        .object [("name", .string ""), ("modules", .integer 1)],
        .object [("name", .string "y"), ("modules", .integer 1)]])])⟩ ∧
    (answer ⟨"m.json"⟩ after (lookingUp "")).2.status = 307 ∧
    (answer ⟨"m.json"⟩ after (lookingUp "x/")).2.status = 307 := by
  have hholds : Generation.HoldsFile blankTree "." "a.php" blankText := ⟨by cbv, by cbv, by cbv⟩
  have hwalk := hholds.walkWith declaredModule?_blankText
  have hdeclared : ∀ m ∈ [blankModule], ∃ t, Source.declaredModule? t = some m :=
    List.forall_mem_singleton.2 ⟨_, declaredModule?_blankText⟩
  have hwritable : Artifact.IsWritable blankTree "m.json" := Artifact.admits_iff.1 (by cbv)
  obtain ⟨after, hstore⟩ :=
    Artifact.exists_store_of_isUnicode hwritable (show (1 : Int) ≤ 70 by decide) (Artifact.isUnicode_build hdeclared)
  obtain ⟨text, content, before, location, hencode, hcontent, hadds, hreplaces⟩ := Artifact.replaces_of_store hstore
  have hleads := hreplaces.leadsTo_of_not_link (hadds.look_ne_link (Generation.look_file_ne_link _ _ _ location))
  have hlisting : consult ⟨"m.json"⟩ after listing = _ :=
    consult_listing hdeclared hencode hcontent (hreplaces.read hleads)
  refine ⟨after, _, Generation.storeWith_eq_ok_iff.2 ⟨_, hwalk, rfl, hstore⟩, ?_, ?_, ?_⟩
  · rw [answer_categories asks_listingRequest, hlisting]
    rfl
  · have hpath : Text.ofString "/categories/" ++ [] =
        Text.ofString "/categories" ++ List.replicate (0 + 1) (CodePoint.scalar '/') := rfl
    rw [answer_slashes (looksUp_lookingUp "") rfl hpath (by decide) (by decide), Route.ofPath?_categories]
    rfl
  · have hpath : Text.ofString "/categories/" ++ "x/" =
        Text.ofString "/categories/x" ++ List.replicate (0 + 1) (CodePoint.scalar '/') := rfl
    have hroute : Route.ofPath? "/categories/x" = some (.category "x") := by decide
    rw [answer_slashes (looksUp_lookingUp "x/") rfl hpath (by decide) (by decide), hroute]
    rfl

end ModuleCatalog.Service
