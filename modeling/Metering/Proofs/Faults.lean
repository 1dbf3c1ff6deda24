import Metering.Proofs.Purity

/-!
# Queries over calls that fail

The calls of a service may fail or take their time, and a limit may cut off a
query in the middle of any of them. What an attempt that forgives no failure
succeeds with is then what it comes to without any (`Attempt.IsFirm`): a bracket
that was found is the one around its target, and the leaves of a source are
those of the catalog. A query that has no answer leaves the cache as it was,
however far it got. One that has an answer leaves behind what was there and
checkpoints that the readings bear out (`query_leaves_all_or_nothing`).
-/

namespace Metering

variable {σ α β ω : Type}

/-! ## Calls that fail -/

/-- How a call goes. -/
structure Fate where
  /-- The error that the call fails with, if it does. -/
  failure : Option StoreError
  /-- The milliseconds that the call takes. -/
  delay : Nat

/-- A database whose calls go as they are fated to, one by one. -/
structure Fated (σ : Type) where
  /-- The database behind the calls. -/
  database : Database σ
  /-- The number of calls so far. -/
  calls : Nat
  /-- How each call goes, by its number and by what it asks for. -/
  fate : Nat → Request σ → Fate

namespace Fated

/-- A fated database as a service. -/
def serve : Service σ (Fated σ) := fun request fated =>
  let fate := fated.fate fated.calls request
  match fate.failure with
  | some error => (⟨.error error, fate.delay⟩, { fated with calls := fated.calls + 1 })
  | none =>
    let (answer, database) := fated.database.answer request
    (⟨answer, fate.delay⟩, { fated with database := database, calls := fated.calls + 1 })

end Fated

/-- What a database answers is possible, and so is every failure. -/
def Possibility.toldOrFailed (database : Database σ) : Possibility σ := fun request answer =>
  (database.answer request).1 = answer ∨ ∃ error, answer = .error error

/-- A lookup of a fated database gets the answer or fails, and leaves the database as it is. -/
theorem Fated.serve_of_isLookup {database : Database σ} (request : Request σ) (fated : Fated σ)
    (lookup : request.IsLookup) (same : fated.database = database) :
    Possibility.toldOrFailed database request (serve request fated).1.answer ∧
      (serve request fated).2.database = database := by
  subst same
  unfold serve
  dsimp only
  split
  · exact ⟨Or.inr ⟨_, rfl⟩, rfl⟩
  · exact ⟨Or.inl rfl, Database.answer_snd_of_isLookup lookup fated.database⟩

/-! ## Attempts that forgive no failure -/

namespace Attempt

variable {database : Database σ}

/-- An attempt succeeds in spite of failures only with what it comes to without them. -/
def IsFirm (database : Database σ) (attempt : Attempt σ α) : Prop :=
  ∀ events value, attempt.Yields (.toldOrFailed database) events (.ok value) →
    attempt.result database = .ok value

/-- A given value is what it comes to. -/
theorem isFirm_pure (value : α) : (pure value : Attempt σ α).IsFirm database :=
  fun _ _ came => came.2

/-- A given error is no success. -/
theorem isFirm_throw (error : QueryError) : (throw error : Attempt σ α).IsFirm database :=
  fun _ _ came => nomatch came.2

/-- A given outcome is what it comes to. -/
theorem isFirm_ofExcept (outcome : Except QueryError α) :
    (Attempt.ofExcept outcome : Attempt σ α).IsFirm database :=
  fun _ _ came => came.2

/-- A request that does not fail is answered. -/
theorem isFirm_request (request : Request σ) : (Attempt.request request).IsFirm database := by
  intro events value came
  obtain ⟨answer, told | ⟨error, rfl⟩, _, same⟩ := (yields_request_iff ..).1 came
  · rw [result_request, told]
    exact same
  · cases same

/-- One attempt after another forgives no failure if neither does. -/
theorem IsFirm.bind {attempt : Attempt σ α} {next : α → Attempt σ β}
    (first : attempt.IsFirm database) (rest : ∀ value, (next value).IsFirm database) :
    (attempt >>= next).IsFirm database := by
  intro events final came
  obtain ⟨early, value, late, _, began, onward⟩ := (yields_bind_ok_iff ..).1 came
  rw [result_bind, first early value began, Except.ok_bind]
  exact rest value late final onward

/-- An attempt along a list forgives no failure if none of its steps does. -/
theorem IsFirm.foldlM {step : β → α → Attempt σ β}
    (each : ∀ sofar item, (step sofar item).IsFirm database) (list : List α) (start : β) :
    (list.foldlM step start).IsFirm database := by
  induction list generalizing start with
  | nil => exact isFirm_pure start
  | cons first rest ih =>
    rw [List.foldlM_cons]
    exact (each start first).bind ih

end Attempt

section Firm

variable {database : Database σ}

/-- Finding a bracket forgives no failure. -/
theorem Bracket.isFirm_find (id : SourceId) (time : Instant) (field : Field) :
    (find id time field : Attempt σ (Bracket σ)).IsFirm database := by
  unfold find
  refine (Attempt.isFirm_request _).bind fun before => ?_
  cases before with
  | none =>
    refine (Attempt.isFirm_request _).bind fun after => ?_
    cases after <;> exact Attempt.isFirm_throw _
  | some reading =>
    dsimp only
    split
    · exact Attempt.isFirm_pure _
    · refine (Attempt.isFirm_request _).bind fun after => ?_
      cases after with
      | none => exact Attempt.isFirm_throw _
      | some next => exact Attempt.isFirm_ofExcept _

namespace Graph

/-- Resolving a source forgives no failure. -/
theorem isFirm_resolve (id : SourceId) :
    (resolve id : Attempt σ (Source σ)).IsFirm database := by
  unfold resolve
  refine (Attempt.isFirm_request _).bind fun found => ?_
  cases found with
  | none => exact Attempt.isFirm_throw _
  | some source => exact Attempt.isFirm_pure source

/-- Resolving a child forgives no failure. -/
theorem isFirm_resolveChild (child parent : SourceId) :
    (resolveChild child parent : Attempt σ (Source σ)).IsFirm database := by
  unfold resolveChild
  refine (Attempt.isFirm_request _).bind fun found => ?_
  cases found with
  | none => exact Attempt.isFirm_throw _
  | some source => exact Attempt.isFirm_pure source

/-- Descending to the leaves forgives no failure. -/
theorem isFirm_leavesUnder (depth : Nat) (path : List SourceId) (found : List (FlatLeaf σ))
    (source : Source σ) : (leavesUnder depth path found source).IsFirm database := by
  induction depth generalizing path found source with
  | zero => exact Attempt.isFirm_throw _
  | succ depth ih =>
    unfold leavesUnder
    cases source.kind with
    | leaf carbonIntensity => exact Attempt.isFirm_pure _
    | aggregate children =>
      refine Attempt.IsFirm.foldlM (fun found child => ?_) children found
      dsimp only
      split
      · exact (Attempt.isFirm_throw _).bind fun _ =>
          (isFirm_resolveChild child source.id).bind fun other => ih _ _ other
      · exact (isFirm_resolveChild child source.id).bind fun other => ih _ _ other

/-- Flattening a source forgives no failure. -/
theorem isFirm_flatten (id : SourceId) :
    (flatten id : Attempt σ (List (FlatLeaf σ))).IsFirm database := by
  unfold flatten
  refine (isFirm_resolve id).bind fun root => ?_
  refine (Attempt.isFirm_request .definitionCount).bind fun (count : Nat) => ?_
  exact (isFirm_leavesUnder (count + 1) [] [] root).bind fun found => Attempt.isFirm_pure _

/-- A leaf flattens to itself. -/
theorem result_flatten_of_isLeaf {id : SourceId} {leaf : Source σ}
    (resolved : (resolve id).result database = .ok leaf) (isLeaf : leaf.isLeaf) :
    (flatten id).result database = .ok [⟨leaf, []⟩] := by
  have count : (Attempt.definitionCount : Attempt σ Nat).result database =
      .ok database.catalog.sources.size := rfl
  have alone : ∀ depth, (leavesUnder (depth + 1) [] [] leaf).result database =
      .ok [⟨leaf, []⟩] := by
    intro depth
    unfold leavesUnder
    unfold Source.isLeaf at isLeaf
    cases kind : leaf.kind with
    | leaf carbonIntensity => rfl
    | aggregate children =>
      rw [kind] at isLeaf
      cases isLeaf
  unfold flatten
  rw [Attempt.result_bind, resolved, Except.ok_bind, Attempt.result_bind, count, Except.ok_bind,
    Attempt.result_bind, alone]
  rfl

/-- A leaf that was reached in spite of failures is one of those that the source flattens to. -/
theorem mem_flatten_of_reaches {id : SourceId} {leaf : Source σ}
    (reaches : Reaches (.toldOrFailed database) id leaf) :
    ∃ leaves, (flatten id).result database = .ok leaves ∧ ∃ flat ∈ leaves, flat.leaf = leaf := by
  rcases reaches with ⟨events, came, isLeaf⟩ | ⟨events, leaves, came, found⟩
  · have resolved := isFirm_resolve id events leaf came
    exact ⟨_, result_flatten_of_isLeaf resolved isLeaf, ⟨leaf, []⟩, List.mem_cons_self, rfl⟩
  · exact ⟨leaves, isFirm_flatten id events leaves came, found⟩

end Graph

end Firm

/-! ## What a query leaves behind -/

variable [Scalar σ]

/-- A checkpoint of a leaf is borne out at a target if it sits on the grid instant before the target
and the readings around that instant have settled and give its counter. -/
structure CheckpointCache.BearsOut (cache : CheckpointCache σ) (database : Database σ)
    (now : Instant) (leaf : Source σ) (settings : CacheSettings) (time : Instant)
    (before after : Reading σ) (checkpoint : Checkpoint σ) : Prop where
  /-- The counter of the leaf is kept. -/
  kept : cache.settingsFor? leaf = some settings
  /-- The checkpoint belongs to the leaf. -/
  own : checkpoint.source = leaf.id
  /-- It sits on the newest grid instant up to the target. -/
  floor : (leaf.grid settings).floor? time = some checkpoint.instant
  /-- It was worked out at the given time. -/
  computed : checkpoint.computedAt = now
  /-- The two readings are those around its instant. -/
  pair : database.readings.Brackets leaf.id .cumulativeEnergy checkpoint.instant before after
  /-- Its counter is the one that the two readings give. -/
  value : Bracket.interpolate ⟨.cumulativeEnergy, before, after, checkpoint.instant⟩ =
    .ok checkpoint.energy
  /-- The later reading is older than the window. -/
  settled : settings.window < now.since after.instant

/-- A checkpoint is borne out for a leaf of the source at one of the instants of a query. -/
def Query.BearsOut (query : Query) (cache : CheckpointCache σ) (database : Database σ)
    (now : Instant) (checkpoint : Checkpoint σ) : Prop :=
  ∃ leaves, (Graph.flatten query.source).result database = .ok leaves ∧ ∃ flat ∈ leaves,
    ∃ time ∈ query.instants, ∃ settings before after,
      cache.BearsOut database now flat.leaf settings time before after checkpoint

/-- What a lookup offers in spite of failures is borne out at its target. -/
theorem CheckpointCache.bearsOut_of_pending {cache : CheckpointCache σ} {database : Database σ}
    {now time : Instant} {leaf : Source σ} {events : List CacheEvent} {read : CounterRead σ}
    {checkpoint : Checkpoint σ}
    (came : (cache.counterAt leaf time now).Yields (.toldOrFailed database) events (.ok read))
    (pending : read.pending = some checkpoint) :
    ∃ settings before after,
      cache.BearsOut database now leaf settings time before after checkpoint := by
  obtain ⟨settings, boundary, early, outcome, kept, _, floor, found, offered⟩ :=
    offer_of_yields came pending
  obtain ⟨bracket, energy, rfl, settled, value, rfl⟩ := exists_bracket_of_offer offered
  have around := Bracket.isFirm_find leaf.id boundary .cumulativeEnergy early bracket found
  rw [Bracket.result_find] at around
  obtain ⟨before, after, pair, rfl⟩ := (ReadingStore.bracket_eq_ok_iff ..).1 around
  exact ⟨settings, before, after, kept, rfl, floor, rfl, pair, value, settled⟩

/-- What a query can find in spite of failures is borne out. -/
theorem Query.bearsOut_of_canFind {query : Query} {cache : CheckpointCache σ}
    {database : Database σ} {now : Instant} {checkpoint : Checkpoint σ}
    (finds : cache.CanFind (.toldOrFailed database) now query.source query.instants checkpoint) :
    query.BearsOut cache database now checkpoint := by
  obtain ⟨leaf, reaches, time, member, events, read, came, pending⟩ := finds
  obtain ⟨leaves, flattened, flat, listed, rfl⟩ := Graph.mem_flatten_of_reaches reaches
  exact ⟨leaves, flattened, flat, listed, time, member,
    CheckpointCache.bearsOut_of_pending came pending⟩

namespace CheckpointCache

variable {possible : Possibility σ} {events : List CacheEvent} {id : SourceId}

/-- A power is answered without checkpoints. -/
theorem found_of_power {time : Instant} {answer : Answer σ σ}
    (came : (power id time).Yields possible events (.ok answer)) : answer.found = [] := by
  unfold power at came
  obtain ⟨_, _, _, _, _, rest⟩ := (Attempt.yields_bind_ok_iff ..).1 came
  obtain ⟨_, _, _, _, _, _, same⟩ := (Attempt.yields_bind_ok_iff ..).1 rest
  rw [← Except.ok.inj same]

/-- A profile is answered without checkpoints. -/
theorem found_of_profile {start stop : Instant} {step : Span}
    {answer : Answer σ (List (Bucket σ))}
    (came : (profile id start stop step).Yields possible events (.ok answer)) :
    answer.found = [] := by
  unfold profile at came
  obtain ⟨_, _, _, _, _, rest⟩ := (Attempt.yields_bind_ok_iff ..).1 came
  dsimp only at rest
  split at rest
  · obtain ⟨_, _, _, _, ⟨_, same⟩, _⟩ := (Attempt.yields_bind_ok_iff ..).1 rest
    cases same
  · obtain ⟨_, _, _, _, _, rest⟩ := (Attempt.yields_bind_ok_iff ..).1 rest
    split at rest
    · rw [← Except.ok.inj rest.2]
    · obtain ⟨_, _, _, _, _, rest⟩ := (Attempt.yields_bind_ok_iff ..).1 rest
      obtain ⟨_, _, _, _, _, _, same⟩ := (Attempt.yields_bind_ok_iff ..).1 rest
      rw [← Except.ok.inj same]

end CheckpointCache

namespace Engine

variable {possible : Possibility σ} {serve : Service σ ω} {holds : ω → Prop}
  {allowed : Request σ → Prop} {counted : CacheEvent → Prop}

/-- Under any limits a query that has no answer leaves the cache as it was, and one that has an
answer keeps what it found. What holds of the service still does. -/
theorem query_of_uses
    (keeps : ∀ request world, allowed request → holds world →
      possible request (serve request world).1.answer ∧ holds (serve request world).2)
    {attempt : Attempt σ (Answer σ α)} (uses : attempt.Uses allowed counted) {engine : Engine σ ω}
    (initially : holds engine.progress.world) (limits : Limits) :
    holds (engine.query serve limits attempt).2.progress.world ∧
      match (engine.query serve limits attempt).1 with
      | .error _ => (engine.query serve limits attempt).2.cache = engine.cache
      | .ok value => ∃ events found, attempt.Yields possible events (.ok ⟨value, found⟩) ∧
        (engine.query serve limits attempt).2.cache = (engine.cache.commit found).1 := by
  obtain ⟨outcome, progress, performed, still, came⟩ :=
    perform_of_uses keeps uses initially limits
  unfold query
  rw [performed]
  cases outcome with
  | error error => exact ⟨still, rfl⟩
  | ok answer =>
    obtain ⟨events, possibly⟩ := came answer rfl
    exact ⟨still, events, answer.found, possibly, rfl⟩

/-- Under any limits a query that finds nothing leaves the cache as it was. -/
theorem cache_query_of_found {attempt : Attempt σ (Answer σ α)}
    (nothing : ∀ events answer, attempt.Yields .any events (.ok answer) → answer.found = [])
    (serve : Service σ ω) (limits : Limits) (engine : Engine σ ω) :
    (engine.query serve limits attempt).2.cache = engine.cache := by
  have anything : ∀ request world, True → True →
      Possibility.any request (serve request world).1.answer ∧ True :=
    fun request world _ _ => ⟨Possibility.any_answer serve request world, trivial⟩
  obtain ⟨_, spec⟩ := query_of_uses anything (Plan.uses_any attempt.run) trivial limits
  split at spec
  · exact spec
  · obtain ⟨events, found, came, same⟩ := spec
    have none_ : found = [] := nothing events _ came
    rw [same, none_]
    rfl

/-- Over a fated database, whatever call fails or takes its time and whatever limit cuts the query
off, a query without an answer leaves the cache and the database as they were. A query with an
answer keeps every checkpoint that was there, and adds only checkpoints that the readings bear out
for a leaf of its source at one of its instants. A power, a profile and a list of leaves leave the
cache as it was. -/
theorem query_leaves_all_or_nothing (engine : Engine σ (Fated σ)) (limits : Limits) :
    (∀ query : Query,
      let asked := engine.query Fated.serve limits (query.attempt engine.cache engine.now)
      asked.2.progress.world.database = engine.progress.world.database ∧
        match asked.1 with
        | .error _ => asked.2.cache = engine.cache
        | .ok _ => engine.cache.GrowsTo asked.2.cache
          (query.BearsOut engine.cache engine.progress.world.database engine.now)) ∧
    (∀ id time, (engine.query Fated.serve limits (CheckpointCache.power id time)).2.cache =
      engine.cache) ∧
    (∀ id start stop step, (engine.query Fated.serve limits
      (CheckpointCache.profile id start stop step)).2.cache = engine.cache) ∧
    ∀ id, (engine.perform Fated.serve limits (Graph.flatten id)).2.cache = engine.cache := by
  refine ⟨fun query => ?_, fun id time => ?_, fun id start stop step => ?_, fun id => rfl⟩
  · obtain ⟨still, spec⟩ := query_of_uses Fated.serve_of_isLookup
      (query.uses_attempt engine.cache engine.now) (Eq.refl engine.progress.world.database) limits
    refine ⟨still, ?_⟩
    cases response : (engine.query Fated.serve limits
        (query.attempt engine.cache engine.now)).1 with
    | error error =>
      rw [response] at spec
      exact spec
    | ok value =>
      rw [response] at spec
      obtain ⟨events, found, came, same⟩ := spec
      have borneOut := fun checkpoint member =>
        Query.bearsOut_of_canFind (query.canFind_of_attempt came checkpoint member)
      dsimp only
      rw [same]
      exact .commit engine.cache borneOut
  · exact cache_query_of_found (fun _ _ came => CheckpointCache.found_of_power came) Fated.serve
      limits engine
  · exact cache_query_of_found (fun _ _ came => CheckpointCache.found_of_profile came) Fated.serve
      limits engine

/-- An engine over two readings of a meter, whose calls take a second from one of them on. -/
def slowFrom (call : Nat) : Engine Rat (Fated Rat) :=
  new .standard ⟨⟨⟨Registry.empty.insert "meter"
    (.ofList [hourlyReading 0 0, hourlyReading 180 6])⟩, hourlyCatalog⟩, 0,
    fun number _ => ⟨none, if call ≤ number then 1000 else 0⟩⟩ (atMinute 1440)

/-- An energy needs ten calls and finds two checkpoints. When the deadline cuts off the ninth call,
the checkpoint found before is not kept either. -/
example :
    let query := Query.energy "meter" (atMinute 75) (atMinute 135)
    let ask := fun engine : Engine Rat (Fated Rat) =>
      engine.query Fated.serve ⟨some 500, none⟩ (query.attempt engine.cache engine.now)
    (ask (slowFrom 10)).1 = .ok 2 ∧
    ((ask (slowFrom 10)).2.cache.seriesOf "meter").entries =
      [⟨"meter", atMinute 120, 4, atMinute 1440⟩, ⟨"meter", atMinute 60, 2, atMinute 1440⟩] ∧
    (ask (slowFrom 8)).1 = .error (.cancelled "deadline elapsed") ∧
    ((ask (slowFrom 8)).2.cache.seriesOf "meter").entries = [] := by
  decide +kernel

end Engine

end Metering
