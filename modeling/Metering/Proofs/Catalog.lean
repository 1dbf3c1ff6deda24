import Metering.Catalog
import Metering.Reading
import Metering.Proofs.Grid
import Metering.Proofs.Outcome

/-!
# Catalogs of valid sources

A catalog that is built by adding, replacing and removing definitions holds
valid ones only, each under its own id (`IsBuilt.isValid`). The settings of a
valid leaf give a grid with an interval of whole seconds, which is what the
instants of its checkpoints rest on (`isRegular_grid`).
-/

namespace Metering

variable {σ : Type}

/-- The grid of a source under its settings. -/
abbrev Source.grid (source : Source σ) (settings : CacheSettings) : Grid :=
  ⟨source.createdAt, settings.interval⟩

/-- Representable settings are of no more seconds than the longest span. -/
theorem CacheSettings.intervalSeconds_le {settings : CacheSettings}
    (representable : settings.areRepresentable) : settings.intervalSeconds ≤ Span.maxSeconds := by
  obtain ⟨fits, _⟩ := Bool.and_eq_true_iff.1 representable
  unfold Span.ofSeconds? at fits
  split at fits
  · assumption
  · cases fits

/-- An interval of representable seconds is that many seconds long. -/
theorem CacheSettings.interval_eq {settings : CacheSettings}
    (representable : settings.areRepresentable) :
    settings.interval = .ofSeconds settings.intervalSeconds := by
  unfold interval Span.ofSeconds?
  rw [if_pos (intervalSeconds_le representable)]
  rfl

/-- Whatever the settings are, the interval is a whole number of milliseconds and not negative. -/
theorem CacheSettings.exists_interval_eq (settings : CacheSettings) :
    ∃ millis : Int, 0 ≤ millis ∧ settings.interval = .ofMillis millis := by
  unfold interval Span.ofSeconds?
  split
  · exact ⟨settings.intervalSeconds * 1000, by omega, Span.ofSeconds_eq_ofMillis _⟩
  · exact ⟨Span.maxMillis, by decide, rfl⟩

/-- Whatever the settings are, the interval is not negative. -/
theorem CacheSettings.interval_nonneg (settings : CacheSettings) : 0 ≤ settings.interval.nanos := by
  obtain ⟨millis, nonneg, same⟩ := settings.exists_interval_eq
  rw [same]
  change 0 ≤ millis * 1000000
  omega

/-- The grid of a positive number of seconds is regular, also where the seconds are too many for a
span. -/
theorem Source.isRegular_of_pos {source : Source σ} {settings : CacheSettings}
    (positive : 0 < settings.intervalSeconds) : (source.grid settings).IsRegular := by
  change ∃ millis : Int, 0 < millis ∧ settings.interval = .ofMillis millis
  unfold CacheSettings.interval Span.ofSeconds?
  split
  · exact ⟨settings.intervalSeconds * 1000, by omega, Span.ofSeconds_eq_ofMillis _⟩
  · exact ⟨Span.maxMillis, by decide, rfl⟩

/-- Whatever the settings are, the grid is regular if it has an instant up to some time. -/
theorem Source.isRegular_of_floor? {source : Source σ} {settings : CacheSettings}
    {time floor : Instant} (found : (source.grid settings).floor? time = some floor) :
    (source.grid settings).IsRegular := by
  obtain ⟨_, _, whole⟩ := settings.exists_interval_eq
  exact Grid.isRegular_of_floor? whole found

namespace Source

/-- Settings are accepted if both are positive and lengths that a span can have. -/
theorem checkCache_eq_ok_iff (source : Source σ) (settings : CacheSettings) :
    source.checkCache settings = .ok () ↔
      0 < settings.intervalSeconds ∧ 0 < settings.windowSeconds ∧ settings.areRepresentable := by
  unfold checkCache
  split
  · rename_i zero
    refine ⟨nofun, ?_⟩
    rintro ⟨interval, window, _⟩
    omega
  · rename_i positive
    split
    · rename_i tooLong
      refine ⟨nofun, ?_⟩
      rintro ⟨_, _, fits⟩
      rw [fits] at tooLong
      cases tooLong
    · rename_i fits
      exact ⟨fun _ => ⟨by omega, by omega, by simpa using fits⟩, fun _ => rfl⟩

variable [Scalar σ]

/-- Among the valid sources only leaves have settings. -/
theorem isLeaf_of_validate {source : Source σ} (valid : source.validate = .ok ())
    {settings : CacheSettings} (asks : source.cache = some settings) : source.isLeaf := by
  obtain ⟨id, kind, direction, createdAt, cache⟩ := source
  cases kind with
  | leaf carbonIntensity => rfl
  | aggregate children =>
    dsimp only at asks
    subst asks
    unfold validate at valid
    split at valid
    · cases valid
    · simp only [checkAggregate] at valid
      split at valid
      · cases valid
      · split at valid <;> cases valid

/-- The settings of a valid leaf are accepted. -/
theorem checkCache_of_validate {source : Source σ} (valid : source.validate = .ok ())
    (leaf : source.isLeaf) {settings : CacheSettings} (asks : source.cache = some settings) :
    source.checkCache settings = .ok () := by
  obtain ⟨id, kind, direction, createdAt, cache⟩ := source
  cases kind with
  | aggregate children => cases leaf
  | leaf carbonIntensity =>
    dsimp only at asks
    subst asks
    unfold validate at valid
    split at valid
    · cases valid
    · simp only [checkLeaf] at valid
      split at valid
      · cases valid
      · exact valid

/-- A valid leaf has a grid of positive whole seconds. -/
theorem isRegular_grid {source : Source σ} (valid : source.validate = .ok ())
    (leaf : source.isLeaf) {settings : CacheSettings} (asks : source.cache = some settings) :
    (source.grid settings).IsRegular :=
  isRegular_of_pos ((checkCache_eq_ok_iff ..).1 (checkCache_of_validate valid leaf asks)).1

end Source

namespace Catalog

/-- A source is one of the definitions. -/
def Defines (catalog : Catalog σ) (source : Source σ) : Prop :=
  ∃ id, catalog.get? id = some source

variable [Scalar σ]

/-- Every definition is valid and under its own id. -/
def IsValid (catalog : Catalog σ) : Prop :=
  ∀ id source, catalog.get? id = some source → source.id = id ∧ source.validate = .ok ()

/-- A valid catalog has its definitions under their own ids. -/
theorem IsValid.get?_id {catalog : Catalog σ} (valid : catalog.IsValid) {source : Source σ}
    (defines : catalog.Defines source) : catalog.get? source.id = some source := by
  obtain ⟨id, found⟩ := defines
  exact (valid id source found).1.symm ▸ found

/-- The catalog without sources is valid. -/
theorem isValid_empty : (empty : Catalog σ).IsValid := by
  intro id source found
  cases found

/-- A definition is added or replaced if it is valid. -/
theorem upsert_eq_ok_iff (catalog after : Catalog σ) (source : Source σ) :
    catalog.upsert source = .ok after ↔
      source.validate = .ok () ∧ ⟨catalog.sources.insert source.id source⟩ = after := by
  unfold upsert
  cases source.validate with
  | error cause => simp
  | ok done => simp

/-- Adding or replacing a definition changes what its own id stands for. -/
theorem get?_of_upsert {catalog after : Catalog σ} {source : Source σ}
    (added : catalog.upsert source = .ok after) (id : SourceId) :
    after.get? id = if source.id = id then some source else catalog.get? id := by
  obtain ⟨_, rfl⟩ := (upsert_eq_ok_iff ..).1 added
  exact Registry.get?_insert ..

/-- Adding or replacing a definition keeps a catalog valid. -/
theorem IsValid.upsert {catalog after : Catalog σ} (valid : catalog.IsValid) {source : Source σ}
    (added : catalog.upsert source = .ok after) : after.IsValid := by
  intro id other found
  rw [get?_of_upsert added] at found
  split at found
  · rename_i here
    obtain rfl := Option.some_inj.1 found
    exact ⟨here, ((upsert_eq_ok_iff ..).1 added).1⟩
  · exact valid id other found

/-- Removing a definition keeps a catalog valid. -/
theorem IsValid.remove {catalog : Catalog σ} (valid : catalog.IsValid) (removed : SourceId) :
    (catalog.remove removed).IsValid := by
  intro id source found
  unfold Catalog.remove get? at found
  rw [Registry.get?_erase] at found
  split at found
  · cases found
  · exact valid id source found

/-- A catalog comes of the one without sources by adding, replacing and removing definitions. -/
inductive IsBuilt : Catalog σ → Prop
  /-- There are no sources at first. -/
  | empty : IsBuilt empty
  /-- A definition that is valid is added or replaced. -/
  | upsert {catalog after : Catalog σ} {source : Source σ} (built : IsBuilt catalog)
    (added : catalog.upsert source = .ok after) : IsBuilt after
  /-- A definition is removed. -/
  | remove {catalog : Catalog σ} (built : IsBuilt catalog) (id : SourceId) :
    IsBuilt (catalog.remove id)

/-- Whatever was added, replaced and removed, a catalog is valid. -/
theorem IsBuilt.isValid {catalog : Catalog σ} (built : catalog.IsBuilt) : catalog.IsValid := by
  induction built with
  | empty => exact isValid_empty
  | upsert built added ih => exact ih.upsert added
  | remove built id ih => exact ih.remove id

/-- A catalog of a list of definitions is built from them. -/
theorem isBuilt_ofList {sources : List (Source σ)} {catalog : Catalog σ}
    (same : ofList sources = .ok catalog) : catalog.IsBuilt :=
  Except.foldlM_invariant IsBuilt (fun _ _ _ _ built added => built.upsert added) .empty same

/-- A catalog of a list of definitions is valid. -/
theorem isValid_ofList {sources : List (Source σ)} {catalog : Catalog σ}
    (same : ofList sources = .ok catalog) : catalog.IsValid := (isBuilt_ofList same).isValid

end Catalog

/-! ## A catalog of one meter -/

/-- A meter created with the calendar's epoch whose counter is kept every hour and settles after a
minute. -/
def hourlyMeter : Source Rat := ⟨"meter", .leaf 0, .consumption, .epoch, some ⟨3600, 60⟩⟩

/-- The catalog of the hourly meter. -/
def hourlyCatalog : Catalog Rat := ⟨Registry.empty.insert "meter" hourlyMeter⟩

/-- The catalog of the hourly meter is valid. -/
theorem isValid_hourlyCatalog : hourlyCatalog.IsValid :=
  have built : Catalog.ofList [hourlyMeter] = .ok hourlyCatalog := rfl
  Catalog.isValid_ofList built

/-- The catalog of the hourly meter has no other source. -/
theorem eq_hourlyMeter {id : SourceId} {source : Source Rat}
    (found : hourlyCatalog.get? id = some source) : source = hourlyMeter := by
  unfold hourlyCatalog Catalog.get? at found
  rw [Registry.get?_insert] at found
  split at found
  · exact (Option.some_inj.1 found).symm
  · cases found

/-- A minute of the first days of the calendar's epoch, which are ten thousand minutes long. -/
def atMinute (minute : Nat) : Instant :=
  ⟨(minute % 10000 : Nat) * 60000000000, by unfold Instant.firstNanos; omega,
    by unfold Instant.lastNanos; omega⟩

/-- A reading of the hourly meter at a minute. -/
def hourlyReading (minute : Nat) (energy : Rat) : Reading Rat :=
  ⟨"meter", atMinute minute, none, some energy⟩

/-- A microsecond of the first ten milliseconds of the calendar's epoch. -/
def atMicro (micro : Nat) : Instant :=
  ⟨(micro % 10000 : Nat) * 1000, by unfold Instant.firstNanos; omega,
    by unfold Instant.lastNanos; omega⟩

/-- A reading of the hourly meter at a microsecond. -/
def quickReading (micro : Nat) (energy : Rat) : Reading Rat :=
  ⟨"meter", atMicro micro, none, some energy⟩

end Metering
