import Mathlib.Data.List.Induction
import Metering.Command.Report
import Metering.Proofs.Catalog
import Metering.Proofs.Documents

/-!
# Listing sources and reading the list

A catalog lists, in the order of their ids, the last definition under each id
that it was built from (`Catalog.mem_toList_iff`, `Catalog.pairwise_toList`), and
what it lists gives the same catalog again (`Catalog.ofList_toList`). The
documents of valid sources are read back as a fixture, also with members added
(`Fixture.ofJson?_of_writtenAs`), so what a loaded engine reports on its sources
is a list that it could have been loaded from (`Command.sources_read_back`).
-/

namespace Metering

/-! ## Registries -/

namespace Registry

variable {β : Type}

/-- Registries with the same entries are the same. -/
theorem ext_of_entries {first second : Registry β} (same : first.entries = second.entries) :
    first = second := by
  cases first
  cases second
  cases same
  rfl

/-- Entries in order are placed one after another behind those that come before them. -/
theorem entries_foldl_insert (entries : List (SourceId × β)) (registry : Registry β)
    (ordered : (registry.entries ++ entries).Pairwise fun earlier later => earlier.1 < later.1) :
    (entries.foldl (fun made pair => made.insert pair.1 pair.2) registry).entries =
      registry.entries ++ entries := by
  induction entries generalizing registry with
  | nil => rw [List.append_nil]; rfl
  | cons first rest ih =>
    have last : ∀ pair ∈ registry.entries, pair.1 < first.1 := fun pair member =>
      (List.pairwise_append.1 ordered).2.2 pair member first List.mem_cons_self
    have placed : (registry.insert first.1 first.2).entries = registry.entries ++ [first] :=
      byId.place_of_after last
    have same : registry.entries ++ first :: rest =
        (registry.insert first.1 first.2).entries ++ rest := by
      rw [placed, List.append_assoc, List.singleton_append]
    rw [List.foldl_cons, ih _ (same ▸ ordered), same]

end Registry

/-! ## Catalogs -/

/-- A source is the last one of a list under its id. -/
def Source.IsLastIn {σ : Type} (source : Source σ) (sources : List (Source σ)) : Prop :=
  ∃ front rest, sources = front ++ source :: rest ∧ ∀ later ∈ rest, later.id ≠ source.id

/-- The last source of a list is the last one under its id, and hides what was under that before. -/
theorem Source.isLastIn_append_iff {σ : Type} (source last : Source σ)
    (sources : List (Source σ)) :
    source.IsLastIn (sources ++ [last]) ↔
      source = last ∨ last.id ≠ source.id ∧ source.IsLastIn sources := by
  constructor
  · rintro ⟨front, rest, same, later⟩
    cases rest using List.reverseRecOn with
    | nil =>
      obtain ⟨_, equal⟩ := List.append_inj' same rfl
      exact Or.inl (List.cons.inj equal).1.symm
    | append_singleton others final =>
      have split : sources ++ [last] = (front ++ source :: others) ++ [final] := by
        rw [same, List.append_assoc, List.cons_append]
      obtain ⟨rfl, equal⟩ := List.append_inj' split rfl
      obtain rfl := (List.cons.inj equal).1
      exact Or.inr ⟨later last (by simp), front, others, rfl, fun other member =>
        later other (List.mem_append_left _ member)⟩
  · rintro (rfl | ⟨apart, front, rest, rfl, later⟩)
    · exact ⟨sources, [], rfl, fun _ member => absurd member List.not_mem_nil⟩
    · refine ⟨front, rest ++ [last], by simp, fun other member => ?_⟩
      rcases List.mem_append.1 member with member | member
      · exact later other member
      · rw [List.mem_singleton.1 member]
        exact apart

namespace Catalog

variable {σ : Type} [Scalar σ] {sources : List (Source σ)} {catalog : Catalog σ}

/-- Valid definitions are all admitted. -/
theorem foldlM_upsert_eq (valid : ∀ source ∈ sources, source.validate = .ok ())
    (catalog : Catalog σ) :
    sources.foldlM upsert catalog =
      .ok ⟨sources.foldl (fun made source => made.insert source.id source) catalog.sources⟩ := by
  induction sources generalizing catalog with
  | nil => rfl
  | cons first rest ih =>
    have added := (upsert_eq_ok_iff catalog _ first).2 ⟨valid first List.mem_cons_self, rfl⟩
    rw [List.foldlM_cons, added]
    exact ih (fun source member => valid source (List.mem_cons_of_mem first member)) _

/-- A catalog of definitions has, under each id, the last one of them. -/
theorem get?_ofList (built : ofList sources = .ok catalog) (id : SourceId) (source : Source σ) :
    catalog.get? id = some source ↔ source.id = id ∧ source.IsLastIn sources := by
  induction sources using List.reverseRecOn generalizing catalog with
  | nil =>
    obtain rfl : empty = catalog := Except.ok.inj built
    refine iff_of_false nofun ?_
    rintro ⟨_, front, rest, same, _⟩
    cases front <;> cases same
  | append_singleton front last ih =>
    unfold ofList at built
    rw [List.foldlM_append] at built
    obtain ⟨before, first, added⟩ := Except.bind_eq_ok_iff.1 built
    simp only [List.foldlM_cons, List.foldlM_nil, bind_pure] at added
    rw [get?_of_upsert added, Source.isLastIn_append_iff]
    by_cases here : last.id = id
    · rw [if_pos here, Option.some_inj]
      constructor
      · rintro rfl
        exact ⟨here, Or.inl rfl⟩
      · rintro ⟨rfl, rfl | ⟨apart, _⟩⟩
        · rfl
        · exact absurd here apart
    · rw [if_neg here, ih first]
      refine and_congr_right ?_
      rintro rfl
      exact ⟨fun earlier => Or.inr ⟨here, earlier⟩, fun either =>
        either.elim (fun same => absurd (same ▸ rfl) here) And.right⟩

/-- A valid catalog keeps its definitions under their own ids. -/
theorem spec_of_mem_entries (valid : catalog.IsValid) {pair : SourceId × Source σ}
    (member : pair ∈ catalog.sources.entries) :
    pair.2.id = pair.1 ∧ pair.2.validate = .ok () :=
  valid pair.1 pair.2 ((catalog.sources.mem_entries_iff ..).1 member)

/-- A catalog lists its definitions in the order of their ids. -/
theorem pairwise_toList (valid : catalog.IsValid) :
    catalog.toList.Pairwise fun earlier later => earlier.id < later.id := by
  unfold toList Registry.values
  rw [List.pairwise_map]
  refine catalog.sources.ordered.imp_of_mem fun {earlier later} first second less => ?_
  rw [(spec_of_mem_entries valid first).1, (spec_of_mem_entries valid second).1]
  exact less

/-- What a catalog of definitions lists is the last of them under each id. -/
theorem mem_toList_iff (built : ofList sources = .ok catalog) (source : Source σ) :
    source ∈ catalog.toList ↔ source.IsLastIn sources := by
  unfold toList Registry.values
  rw [List.mem_map]
  constructor
  · rintro ⟨⟨id, source⟩, member, rfl⟩
    exact ((get?_ofList built ..).1 ((catalog.sources.mem_entries_iff ..).1 member)).2
  · intro last
    exact ⟨(source.id, source), (catalog.sources.mem_entries_iff ..).2
      ((get?_ofList built ..).2 ⟨rfl, last⟩), rfl⟩

/-- What a catalog lists gives the same catalog again. -/
theorem ofList_toList (valid : catalog.IsValid) : ofList catalog.toList = .ok catalog := by
  have each : ∀ source ∈ catalog.toList, source.validate = .ok () := by
    intro source member
    obtain ⟨pair, held, rfl⟩ := List.mem_map.1 member
    exact (spec_of_mem_entries valid held).2
  have placed := Registry.entries_foldl_insert catalog.sources.entries .empty
    catalog.sources.ordered
  have same : catalog.toList.foldl (fun made source => Registry.insert made source.id source)
      .empty = catalog.sources := by
    unfold toList Registry.values
    have own : ∀ (made : Registry (Source σ)), ∀ pair ∈ catalog.sources.entries,
        made.insert pair.2.id pair.2 = made.insert pair.1 pair.2 := fun made pair held => by
      rw [(spec_of_mem_entries valid held).1]
    rw [List.foldl_map, List.foldl_ext _ _ _ own]
    exact Registry.ext_of_entries placed
  unfold ofList
  rw [foldlM_upsert_eq each, empty, same]

end Catalog

/-! ## Fixtures -/

namespace Command

namespace Fixture

variable {σ : Type} [Scalar σ] {sources : List (Source σ)} {documents : List (Json (Numeral σ))}

/-- The keys that a fixture knows. -/
def keys : List String := ["sources", "readings"]

/-- Documents of sources with members added are read as these sources exactly if what is added to
each of them can be read. -/
theorem mapM_ofJson?_of_writtenAs (written : List.Forall₂ Source.WrittenAs sources documents) :
    documents.mapM (Source.ofJson? Json.scalar?) =
      if documents.all (Json.isReadableBeside "cache") then some sources else none := by
  induction written with
  | nil => rfl
  | @cons source document sources documents first rest ih =>
    rw [List.mapM_cons, Source.ofJson?_of_writtenAs first, ih, List.all_cons]
    cases document.isReadableBeside "cache" with
    | false => rfl
    | true => cases documents.all (Json.isReadableBeside "cache") <;> rfl

/-- A fixture of sources with members added to it and to them is read as these sources exactly if
what is added to each of them can be read. -/
theorem ofJson?_of_writtenAs {document : Json (Numeral σ)}
    (written : List.Forall₂ Source.WrittenAs sources documents)
    (pads : Json.IsPadded keys (.object [("sources", .array documents)]) document) :
    ofJson? Json.scalar? document =
      if documents.all (Json.isReadableBeside "cache") then some ⟨sources, []⟩ else none := by
  obtain ⟨own, members, same, rfl, pads⟩ := pads
  obtain rfl := Json.object.inj same
  have settled : ∀ key ∈ keys, Json.member? key members = Json.member? key _ := fun key known =>
    pads.member?_eq key (not_not_intro known) fun _ _ same => same
  have single : (Json.object members).members? keys = some members :=
    pads.members?_eq (fun _ known => not_not_intro known) rfl
  have listed : Json.member? "sources" members = some (.array documents) :=
    settled "sources" (by decide)
  have nothing : Json.member? "readings" members = none := settled "readings" (by decide)
  unfold ofJson? Json.defaulted?
  change ((Json.object members).members? keys >>= _) = _
  rw [single]
  simp only [listed, nothing, Json.list?, mapM_ofJson?_of_writtenAs written, Option.bind_eq_bind,
    Option.bind_some]
  cases documents.all (Json.isReadableBeside "cache") <;> rfl

/-- The documents of sources are read back as these sources. -/
theorem ofJson?_toJson (sources : List (Source σ)) :
    ofJson? Json.scalar? (.object [("sources", .array (sources.map Source.toJson))]) =
      some ⟨sources, []⟩ := by
  have written : List.Forall₂ Source.WrittenAs sources (sources.map Source.toJson) :=
    List.forall₂_map_right_iff.2 (List.forall₂_same.2 fun source _ => source.writtenAs_toJson)
  have readable : (sources.map Source.toJson).all (Json.isReadableBeside "cache") := by
    rw [List.all_map, List.all_eq_true]
    exact fun source _ => source.isReadableBeside_toJson
  rw [ofJson?_of_writtenAs written (Json.isPadded_refl ..), if_pos readable]

end Fixture

/-- Valid sources are read back from their documents. Members added to a fixture, to its sources or
to their cache settings, under keys that these do not know, make no difference as long as those
added to a source itself can be read to their ends, and the fixture is refused otherwise. The
catalog of the sources lists, in the order of their ids, the last of them under each id. This is
reported as a list of documents that is read back as the same sources, of which the catalog is the
same. -/
theorem sources_read_back (sources : List (Source Float))
    (valid : ∀ source ∈ sources, source.validate = .ok ()) (config : Config) (now : Instant) :
    (∀ documents fixture, List.Forall₂ Source.WrittenAs sources documents →
      Json.IsPadded Fixture.keys (.object [("sources", .array documents)]) fixture →
      Fixture.ofJson? Json.scalar? fixture =
        if documents.all (Json.isReadableBeside "cache") then some ⟨sources, []⟩ else none) ∧
    Fixture.ofJson? Json.scalar? (.object [("sources", .array (sources.map Source.toJson))]) =
      some ⟨sources, []⟩ ∧
    ∃ engine, load config now ⟨sources, []⟩ = .ok engine ∧
      let listed := engine.progress.world.catalog.toList
      let report := Json.array (listed.map Source.toJson)
      (∀ source, source ∈ listed ↔ source.IsLastIn sources) ∧
      listed.Pairwise (fun earlier later => earlier.id < later.id) ∧
      answer engine .sources = .ok report ∧
      Fixture.ofJson? Json.scalar? (.object [("sources", report)]) = some ⟨listed, []⟩ ∧
      load config now ⟨listed, []⟩ = .ok engine := by
  refine ⟨fun documents fixture => Fixture.ofJson?_of_writtenAs, Fixture.ofJson?_toJson sources, ?_⟩
  obtain ⟨catalog, built⟩ : ∃ catalog, Catalog.ofList sources = .ok catalog :=
    ⟨_, Catalog.foldlM_upsert_eq valid .empty⟩
  have keeps := Catalog.isValid_ofList built
  have loaded {sources : List (Source Float)} (built : Catalog.ofList sources = .ok catalog) :
      load config now ⟨sources, []⟩ = .ok (.new config ⟨.empty, catalog⟩ now) := by
    unfold load
    rw [built]
    rfl
  exact ⟨_, loaded built, Catalog.mem_toList_iff built, Catalog.pairwise_toList keeps, rfl,
    Fixture.ofJson?_toJson catalog.toList, loaded (Catalog.ofList_toList keeps)⟩

/-- A meter in doubles whose counter is kept every hour, created some time after the epoch. -/
def solarMeter : Source Float :=
  ⟨"solar", .leaf 50, .generation, atMinute 90, some ⟨3600, 60⟩⟩

/-- A site that counts the meter twice. -/
def solarSite : Source Float := ⟨"site", .aggregate ["solar", "solar"], .consumption, .epoch, none⟩

/-- The document of the meter with a note in its cache settings that cannot be read, and with the
member of the other kind. -/
def notedMeter : Json (Numeral Float) :=
  .object [("children", .null),
    ("cache", .object [("note", .unreadable), ("checkpoint_interval_secs", Json.ofNat 3600),
      ("window_secs", Json.ofNat 60)]),
    ("carbon_intensity", Json.ofScalar 50), ("created_at", Json.ofInstant (atMinute 90)),
    ("direction", .string "generation"), ("id", .string "solar"), ("type", .string "leaf")]

/-- The document is that of the meter with members added. -/
theorem writtenAs_notedMeter : solarMeter.WrittenAs notedMeter := by
  refine ⟨_, _, rfl, rfl, .add (by decide) (.keep (Or.inr ⟨rfl, _, _, rfl, rfl, ?_⟩) ?_)⟩
  · refine .add (by decide) (.refl ?_ _)
    exact fun _ _ => rfl
  · exact .refl (fun _ _ => Or.inl rfl) _

/-- The meter and the site are read back, the meter with its members added, and the site is listed
first. -/
theorem sources_read_back_solar :
    let sources := [solarMeter, solarSite]
    let fixture := Json.object [("sources", .array [notedMeter, solarSite.toJson]),
      ("note", .unreadable)]
    Fixture.ofJson? Json.scalar? fixture = some ⟨sources, []⟩ ∧
      ∃ engine, load .standard .epoch ⟨sources, []⟩ = .ok engine ∧
        answer engine .sources =
          .ok (.array (engine.progress.world.catalog.toList.map Source.toJson)) := by
  intro sources fixture
  have valid : ∀ source ∈ sources, source.validate = .ok () := by decide +kernel
  obtain ⟨reads, _, engine, loaded, _, _, reported, _⟩ :=
    sources_read_back sources valid .standard .epoch
  have written : List.Forall₂ Source.WrittenAs sources [notedMeter, solarSite.toJson] :=
    .cons writtenAs_notedMeter (.cons solarSite.writtenAs_toJson .nil)
  refine ⟨reads _ fixture written ⟨_, _, rfl, rfl, ?_⟩, engine, loaded, reported⟩
  exact .keep rfl (.add (by decide) .nil)

/-- The text of a fixture of one site, with further members. -/
def siteText (further : String) : String :=
  "\x7b\"sources\":[\x7b\"id\":\"site\",\"type\":\"virtual\",\"children\":[\"meter\"]" ++ further ++
    "\x7d]\x7d"

/-- A site is a valid source and read back from its document, but not with a note in it that is half
of a surrogate pair. -/
theorem refused_with_note :
    let site : Source Float := ⟨"site", .aggregate ["meter"], .consumption, .epoch, none⟩
    let ids := fun fixture : Fixture Float =>
      fixture.sources.map fun source => (source.id, source.children)
    site.validate = .ok () ∧ Source.ofJson? Json.scalar? site.toJson = some site ∧
      (∃ document, site.WrittenAs document ∧ Source.ofJson? Json.scalar? document = none) ∧
      (Fixture.parse? (siteText "")).map ids = some [("site", ["meter"])] ∧
      (Fixture.parse? (siteText ",\"note\":1")).map ids = some [("site", ["meter"])] ∧
      Fixture.parse? (siteText ",\"note\":\"\\ud800\"") = none := by
  intro site ids
  have valid : site.validate = .ok () := by decide +kernel
  have plain : Source.ofJson? Json.scalar? site.toJson = some site := by
    rw [Source.ofJson?_of_writtenAs site.writtenAs_toJson, if_pos site.isReadableBeside_toJson]
  have refused : Fixture.parse? (siteText ",\"note\":\"\\ud800\"") = none :=
    Option.isNone_iff_eq_none.1 (by decide +kernel)
  refine ⟨valid, plain, ?_, by decide +kernel, by decide +kernel, refused⟩
  obtain ⟨own, same⟩ : ∃ own, site.toJson = .object own := ⟨_, rfl⟩
  have written : site.WrittenAs (.object (("note", .unreadable) :: own)) := by
    refine ⟨own, _, same, rfl, .add (by decide) (.refl ?_ own)⟩
    exact fun _ _ => Or.inl rfl
  refine ⟨_, written, ?_⟩
  rw [Source.ofJson?_of_writtenAs written]
  rfl

end Command

end Metering
