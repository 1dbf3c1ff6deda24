import Metering.Document
import Metering.Proofs.InstantText

/-!
# Documents with members added

A document of a source is read by the members that it knows: members with other
keys, put anywhere between them, change none of those it looks for
(`Json.Padded.member?_eq`, `Json.Padded.repeatsAny_eq`). They only have to be
readable where the members of the source's kind stand beside the others, and not
in the cache settings. So a document of a source with members added is read as
that source if and only if what is added to the source itself can be read
(`Source.ofJson?_of_writtenAs`).
-/

namespace Metering

namespace Json

variable {ν : Type}

/-- Members with foreign ones put in between, where those that stay may have a value that stands for
their own. -/
inductive Padded (foreign : String → Prop) (stands : String → Json ν → Json ν → Prop) :
    List (String × Json ν) → List (String × Json ν) → Prop where
  /-- There are no members. -/
  | nil : Padded foreign stands [] []
  /-- A member stays. -/
  | keep {key : String} {value other : Json ν} {members padded : List (String × Json ν)}
      (same : stands key value other) (rest : Padded foreign stands members padded) :
      Padded foreign stands ((key, value) :: members) ((key, other) :: padded)
  /-- A member is added. -/
  | add {key : String} {value : Json ν} {members padded : List (String × Json ν)}
      (unknown : foreign key) (rest : Padded foreign stands members padded) :
      Padded foreign stands members ((key, value) :: padded)

namespace Padded

variable {foreign : String → Prop} {stands : String → Json ν → Json ν → Prop}
  {members padded : List (String × Json ν)}

/-- Nothing has to be added. -/
theorem refl (reflexive : ∀ key value, stands key value value) (members : List (String × Json ν)) :
    Padded foreign stands members members := by
  induction members with
  | nil => exact .nil
  | cons first rest ih => exact .keep (reflexive first.1 first.2) ih

/-- A member that is looked for is found among others if it was there, with a value that stands for
its own. -/
theorem member?_cases (key : String) (known : ¬ foreign key)
    (pads : Padded foreign stands members padded) :
    member? key members = none ∧ member? key padded = none ∨
      ∃ value other, member? key members = some value ∧ member? key padded = some other ∧
        stands key value other := by
  unfold member?
  induction pads with
  | nil => exact Or.inl ⟨rfl, rfl⟩
  | @keep first value other members padded same rest ih =>
    by_cases here : key = first
    · subst here
      exact Or.inr ⟨value, other, List.lookup_cons_self, List.lookup_cons_self, same⟩
    · have apart : (key == first) = false := beq_false_of_ne here
      simpa only [List.lookup_cons, apart] using ih
  | @add first value members padded unknown rest ih =>
    have apart : (key == first) = false := beq_false_of_ne fun here => known (here ▸ unknown)
    simpa only [List.lookup_cons, apart] using ih

/-- A member that is looked for has the value it had if no other one stands for that. -/
theorem member?_eq (key : String) (known : ¬ foreign key)
    (strict : ∀ value other, stands key value other → other = value)
    (pads : Padded foreign stands members padded) :
    member? key padded = member? key members := by
  rcases pads.member?_cases key known with ⟨none_, padded_⟩ | ⟨value, other, found, padded_, same⟩
  · rw [none_, padded_]
  · rw [found, padded_, strict value other same]

/-- Members that are looked for are repeated among others if they were. -/
theorem repeatsAny_eq {keys : List String} (known : ∀ key ∈ keys, ¬ foreign key)
    (pads : Padded foreign stands members padded) :
    repeatsAny keys padded = repeatsAny keys members := by
  have number : ∀ key ∈ keys, (padded.filter fun pair => pair.1 == key).length =
      (members.filter fun pair => pair.1 == key).length := by
    intro key member
    induction pads with
    | nil => rfl
    | @keep first value other members padded same rest ih =>
      by_cases here : (first == key) = true
      · simp [here, ih]
      · simp [here, ih]
    | @add first value members padded unknown rest ih =>
      have apart : (first == key) = false :=
        beq_false_of_ne fun here => known key member (here ▸ unknown)
      simp [apart, ih]
  unfold repeatsAny
  rw [Bool.eq_iff_iff, List.any_eq_true, List.any_eq_true]
  refine exists_congr fun key => and_congr_right fun member => ?_
  rw [number key member]

/-- An object in which no known member was repeated has none repeated with others added. -/
theorem members?_eq {keys : List String} (known : ∀ key ∈ keys, ¬ foreign key)
    (single : repeatsAny keys members = false) (pads : Padded foreign stands members padded) :
    (Json.object padded).members? keys = some padded := by
  change (if repeatsAny keys padded then none else some padded) = some padded
  rw [pads.repeatsAny_eq known, single]
  rfl

end Padded

/-- A value that is read is not null. -/
theorem nullable?_of_read {α : Type} {read : Json ν → Option α} {value : Json ν} {found : α}
    (came : read value = some found) (never : read .null = none) :
    nullable? read value = some (some found) := by
  unfold nullable?
  split
  · rw [never] at came
    cases came
  · rw [came]
    rfl

/-- An instant is read from its text. -/
theorem instant?_ofInstant (time : Instant) : instant? (ofInstant time : Json ν) = some time := by
  simp only [instant?, ofInstant, string?, Option.bind_some, Instant.ofText?_text]

/-- A document is an object with only members added to it that are not known. -/
def IsPadded (known : List String) (document padded : Json ν) : Prop :=
  ∃ members others, document = .object members ∧ padded = .object others ∧
    Padded (· ∉ known) (fun _ value other => other = value) members others

/-- Fewer keys are not repeated either. -/
theorem repeatsAny_of_subset {keys others : List String} {members : List (String × Json ν)}
    (single : repeatsAny others members = false) (subset : keys ⊆ others) :
    repeatsAny keys members = false := by
  unfold repeatsAny at *
  rw [List.any_eq_false] at *
  exact fun key member => single key (subset member)

/-- Texts can be read. -/
theorem areReadable_map_string (texts : List String) :
    areReadable (texts.map (string : String → Json ν)) := by
  induction texts with
  | nil => rfl
  | cons first rest ih => exact ih

/-- Nothing has to be added to an object. -/
theorem isPadded_refl (known : List String) (members : List (String × Json ν)) :
    IsPadded known (.object members) (.object members) := by
  refine ⟨members, members, rfl, rfl, .refl ?_ members⟩
  exact fun _ _ => rfl

/-- Whether all members of an object but those with one key can be read to their ends. -/
def isReadableBeside (key : String) : Json ν → Bool
  | .object members => membersAreReadable (members.filter fun pair => pair.1 ≠ key)
  | value => value.isReadable

end Json

/-! ## Cache settings -/

namespace CacheSettings

variable {σ : Type}

/-- The keys that cache settings know. -/
def keys : List String := ["checkpoint_interval_secs", "window_secs"]

/-- Cache settings are read from their document, whatever members are added to it. -/
theorem ofJson?_of_isPadded {settings : CacheSettings} {document : Json (Numeral σ)}
    (pads : Json.IsPadded keys settings.toJson document) : ofJson? document = some settings := by
  obtain ⟨members, padded, written, rfl, pads⟩ := pads
  obtain rfl : _ = members := Json.object.inj written
  have settled : ∀ key ∈ keys, Json.member? key padded = Json.member? key _ := fun key member =>
    pads.member?_eq key (not_not_intro member) fun _ _ same => same
  have single : (Json.object padded).members? keys = some padded :=
    pads.members?_eq (fun _ member => not_not_intro member) rfl
  unfold ofJson? Json.required?
  change ((Json.object padded).members? keys >>= _) = _
  rw [single]
  simp only [Option.bind_eq_bind, Option.bind_some, settled _ (List.mem_cons_self),
    settled "window_secs" (by decide)]
  rfl

end CacheSettings

/-! ## Sources -/

/-- A direction is read by its name. -/
theorem Direction.ofName?_name (direction : Direction) :
    ofName? direction.name = some direction := by
  cases direction <;> rfl

namespace Source

variable {σ : Type} {source : Source σ} {members own : List (String × Json (Numeral σ))}

/-- The key of what a source is made of. -/
def kindKey (source : Source σ) : String :=
  if source.isLeaf then "carbon_intensity" else "children"

/-- What a source is made of, as a document. -/
def kindJson (source : Source σ) : Json (Numeral σ) :=
  match source.kind with
  | .leaf carbonIntensity => Json.ofScalar carbonIntensity
  | .aggregate children => .array (children.map Json.string)

/-- The keys that a document of a source knows. The one of the kind that the source is not of is not
among them. -/
def keys (source : Source σ) : List String :=
  [source.kindKey, "id", "type", "direction", "created_at", "cache"]

/-- A value stands for another one in the document of a source. They are the same, except that
cache settings may have members added. -/
def StandsFor (key : String) (value other : Json (Numeral σ)) : Prop :=
  other = value ∨ key = "cache" ∧ Json.IsPadded CacheSettings.keys value other

/-- A document is that of a source with members added to it or to its cache settings. -/
def WrittenAs (source : Source σ) (document : Json (Numeral σ)) : Prop :=
  ∃ own members, source.toJson = .object own ∧ document = .object members ∧
    Json.Padded (· ∉ source.keys) StandsFor own members

/-- What the document of a source says, none of it twice. -/
theorem own_spec (written : source.toJson = .object own) :
    Json.repeatsAny source.keys own = false ∧
    Json.member? "id" own = some (.string source.id) ∧
    Json.member? "type" own = some (.string (if source.isLeaf then "leaf" else "virtual")) ∧
    Json.member? source.kindKey own = some source.kindJson ∧
    Json.member? "direction" own = some (.string source.direction.name) ∧
    Json.member? "created_at" own = some (Json.ofInstant source.createdAt) ∧
    Json.member? "cache" own = source.cache.map CacheSettings.toJson := by
  obtain ⟨id, kind, direction, createdAt, cache⟩ := source
  cases kind <;> cases cache <;> obtain rfl := Json.object.inj written <;>
    exact ⟨rfl, rfl, rfl, rfl, rfl, rfl, rfl⟩

/-- The document of a source can be read to its ends. -/
theorem isReadableBeside_toJson (source : Source σ) : source.toJson.isReadableBeside "cache" := by
  obtain ⟨id, kind, direction, createdAt, cache⟩ := source
  cases kind with
  | leaf carbonIntensity => cases cache <;> rfl
  | aggregate children =>
    have texts : (Json.areReadable (children.map Json.string : List (Json (Numeral σ)))) :=
      Json.areReadable_map_string children
    cases cache <;>
      simp [toJson, Json.optional, Json.isReadableBeside, Json.membersAreReadable, Json.isReadable,
        Json.ofInstant, texts]

/-- A document of a source is one with nothing added. -/
theorem writtenAs_toJson (source : Source σ) : source.WrittenAs source.toJson := by
  obtain ⟨own, written⟩ : ∃ own, source.toJson = .object own := by
    unfold toJson
    dsimp only
    split <;> exact ⟨_, rfl⟩
  refine ⟨own, own, written, written, .refl ?_ own⟩
  exact fun _ _ => Or.inl rfl

/-- With members added, all but the cache settings have the values they had. -/
theorem member?_of_ne_cache (pads : Json.Padded (· ∉ source.keys) StandsFor own members)
    {key : String} (known : key ∈ source.keys) (apart : key ≠ "cache") :
    Json.member? key members = Json.member? key own := by
  rcases pads.member?_cases key (not_not_intro known) with
    ⟨absent, gone⟩ | ⟨value, other, found, there, equal | ⟨same, _⟩⟩
  · rw [absent, gone]
  · rw [found, there, equal]
  · exact absurd same apart

/-- With members added, the cache settings are read as they were. -/
theorem cache_of_padded (pads : Json.Padded (· ∉ source.keys) StandsFor own members)
    (cache : Json.member? "cache" own = source.cache.map CacheSettings.toJson) :
    Json.defaulted? (Json.nullable? CacheSettings.ofJson?) none "cache" members =
      some source.cache := by
  unfold Json.defaulted?
  rcases pads.member?_cases "cache" (not_not_intro (by simp [keys])) with
    ⟨absent, gone⟩ | ⟨value, other, found, there, stands⟩
  · rw [cache, Option.map_eq_none_iff] at absent
    rw [gone, absent]
  · rw [cache, Option.map_eq_some_iff] at found
    obtain ⟨settings, asks, rfl⟩ := found
    have read : CacheSettings.ofJson? other = some settings := by
      rcases stands with rfl | ⟨_, padded⟩
      · exact CacheSettings.ofJson?_of_isPadded (Json.isPadded_refl ..)
      · exact CacheSettings.ofJson?_of_isPadded padded
    rw [there, asks]
    exact Json.nullable?_of_read read rfl

/-- A list of strings is read from them. -/
theorem list?_map_string (texts : List String) :
    Json.list? Json.string? (.array (texts.map (Json.string : String → Json (Numeral σ)))) =
      some texts := by
  change (texts.map Json.string).mapM Json.string? = some texts
  induction texts with
  | nil => rfl
  | cons first rest ih =>
    rw [List.map_cons, List.mapM_cons, ih]
    rfl

variable [Scalar σ]

/-- What a source is made of is read from the members that say so. -/
theorem kindOfMembers?_eq (type : Json.member? "type" members =
      some (.string (if source.isLeaf then "leaf" else "virtual")))
    (single : (Json.object members).members? [source.kindKey] = some members)
    (kind : Json.member? source.kindKey members = some source.kindJson) :
    kindOfMembers? Json.scalar? members = some source.kind := by
  unfold kindOfMembers? Json.required?
  unfold kindJson at kind
  unfold kindKey at single kind
  unfold isLeaf at type single kind
  cases made : source.kind with
  | leaf carbonIntensity =>
    simp only [made, if_true] at type single kind
    simp only [type, Option.bind_eq_bind, Option.bind_some, isLeafType?, if_true, single, kind]
    rfl
  | aggregate children =>
    simp only [made, Bool.false_eq_true, if_false] at type single kind
    simp only [type, Option.bind_eq_bind, Option.bind_some, isLeafType?, Bool.false_eq_true,
      if_false, single, kind, list?_map_string]
    rfl

/-- A document of a source with members added is read as the source exactly if the members beside
its cache settings can be read to their ends. Otherwise it is not read at all. -/
theorem ofJson?_of_writtenAs {document : Json (Numeral σ)} (written : source.WrittenAs document) :
    ofJson? Json.scalar? document =
      if document.isReadableBeside "cache" then some source else none := by
  obtain ⟨own, members, same, rfl, pads⟩ := written
  obtain ⟨single, id, type, kind, direction, createdAt, cache⟩ := own_spec same
  have alone : ∀ keys : List String, keys ⊆ source.keys →
      (Json.object members).members? keys = some members := fun keys known =>
    pads.members?_eq (fun key member => not_not_intro (known member))
      (Json.repeatsAny_of_subset single known)
  have settled : ∀ key ∈ source.keys, key ≠ "cache" →
      Json.member? key members = Json.member? key own := fun _ => member?_of_ne_cache pads
  have beside : source.kindKey ≠ "cache" := by
    unfold kindKey
    split <;> decide
  have made : kindOfMembers? Json.scalar? members = some source.kind :=
    kindOfMembers?_eq (by rw [settled "type" (by simp [keys]) (by decide), type])
      (alone _ (by simp [keys])) (by rw [settled source.kindKey (by simp [keys]) beside, kind])
  have way : Json.defaulted? (Json.choice? Direction.ofName?) .consumption "direction" members =
      some source.direction := by
    unfold Json.defaulted?
    rw [settled "direction" (by simp [keys]) (by decide), direction]
    exact source.direction.ofName?_name
  have time : Json.defaulted? Json.instant? .epoch "created_at" members =
      some source.createdAt := by
    unfold Json.defaulted?
    rw [settled "created_at" (by simp [keys]) (by decide), createdAt]
    exact Json.instant?_ofInstant source.createdAt
  unfold ofJson? Json.required?
  rw [alone _ (List.subset_cons_self ..)]
  simp only [made, cache_of_padded pads cache, way, time, settled "id" (by simp [keys]) (by decide),
    id, Json.string?, Option.bind_eq_bind, Option.bind_some]
  rfl

end Source

end Metering
