import Metering.Proofs.Exchanges
import Metering.Proofs.Inquiries

/-!
# Heeding a cancellation

A store may refuse a call because the query it is made for has been cancelled.
Every call of an inquiry heeds that, and the inquiry ends with the cancellation
and keeps no checkpoint, with one exception: the calls around a grid instant
that are made for an offer alone. Their failure is ignored whatever it is, and
the inquiry goes on as if the store did not work there
(`Engine.inquire_heeds_cancellation`).
-/

namespace Metering

variable {σ α β : Type}

/-- A call was refused because the query it is made for has been cancelled. -/
def StoreError.IsCancelled (error : StoreError) : Prop :=
  ∃ reason, error = .rejected (.cancelled reason)

/-! ## A failure in another's place -/

/-- The same fated database, except that the call with a number fails with a given error. -/
def Fated.withFailure (fated : Fated σ) (number : Nat) (error : StoreError) : Fated σ :=
  { fated with fate := fun count request =>
      if count = number then ⟨some error, (fated.fate count request).delay⟩
      else fated.fate count request }

/-- The same progress, except that the call with a number fails with a given error. -/
def Progress.withFailure (progress : Progress (Fated σ)) (number : Nat) (error : StoreError) :
    Progress (Fated σ) :=
  { progress with world := progress.world.withFailure number error }

/-- The same engine, except that the call with a number fails with a given error. -/
def Engine.withFailure (engine : Engine σ (Fated σ)) (number : Nat) (error : StoreError) :
    Engine σ (Fated σ) :=
  { engine with progress := engine.progress.withFailure number error }

namespace Fated

variable {fated : Fated σ} {number : Nat} {request : Request σ}

/-- Every call is counted. -/
theorem calls_serve (request : Request σ) (fated : Fated σ) :
    (serve request fated).2.calls = fated.calls + 1 := by
  cases fate : (fated.fate fated.calls request).failure with
  | some error => rw [serve_of_failure fate]; rfl
  | none => rw [serve_of_no_failure fate]; rfl

/-- A call with another number is answered as before. -/
theorem serve_withFailure (other : fated.calls ≠ number) (request : Request σ)
    (error : StoreError) :
    serve request (fated.withFailure number error) =
      ((serve request fated).1, (serve request fated).2.withFailure number error) := by
  unfold serve withFailure
  simp only [if_neg other]
  cases (fated.fate fated.calls request).failure with
  | some first => rfl
  | none => rfl

/-- A call that fails fails with the other error instead, and takes the same time. -/
theorem serve_withFailure_self {first : StoreError}
    (fails : (fated.fate fated.calls request).failure = some first) (error : StoreError) :
    serve request (fated.withFailure fated.calls error) =
      (⟨.error error, (serve request fated).1.delay⟩,
        (serve request fated).2.withFailure fated.calls error) := by
  unfold serve withFailure
  simp only [if_pos, fails]

/-- A lookup fails only if it is fated to. -/
theorem failure_of_serve_lookup (lookup : request.IsLookup) {error : StoreError}
    (failed : (serve request fated).1.answer = .error error) :
    (fated.fate fated.calls request).failure = some error := by
  cases fate : (fated.fate fated.calls request).failure with
  | some first =>
    rw [serve_of_failure fate] at failed
    exact congrArg some (Except.error.inj failed)
  | none =>
    have answered := Exchange.failed_of_isLookup lookup fated.database
    rw [serve_lookup lookup fate] at failed
    have failed : (fated.database.answer request).1 = .error error := failed
    rw [failed] at answered
    cases answered

end Fated

namespace Plan

variable {number : Nat} {progress : Progress (Fated σ)}

/-- How a call that has been made would fail makes no difference to what comes after it. -/
theorem run_withFailure (limits : Limits) (plan : Plan σ α)
    (past : number < progress.world.calls) (error : StoreError) :
    run Fated.serve limits plan (progress.withFailure number error) =
      ((run Fated.serve limits plan progress).1,
        (run Fated.serve limits plan progress).2.withFailure number error) := by
  induction plan generalizing progress with
  | done result => rfl
  | tally event next ih =>
    have onward : number <
        { progress with tally := progress.tally.add event }.world.calls := past
    exact ih onward
  | poll next ih =>
    simp only [run, Progress.withFailure]
    split
    · rfl
    · exact ih past
  | ask request next ih =>
    have served := Fated.serve_withFailure (Nat.ne_of_gt past) request error
    have counted := Fated.calls_serve request progress.world
    simp only [run, Progress.withFailure, served]
    rcases limits.wait progress.elapsed (Fated.serve request progress.world).1.delay with
      ⟨moment, _ | interruption⟩
    · have onward : number < (⟨(Fated.serve request progress.world).2, moment, progress.tally⟩ :
          Progress (Fated σ)).world.calls := counted ▸ Nat.lt_succ_of_lt past
      exact ih _ onward
    · rfl

variable {heeded : StoreError → Prop} {ignored : Request σ → Prop} {index : Nat}
  {call : Exchange σ} {error : StoreError}

/-- A plan of which a call fails with an error that is heeded ends with that error, or the call is
one whose failure is ignored, and the plan runs as it does whatever the call fails with. -/
theorem run_of_heeds {plan : Plan σ (Except QueryError α)} (heeds : plan.Heeds heeded ignored)
    (lookups : ∀ request, ignored request → request.IsLookup) (limits : Limits)
    (made : (plan.exchanges Fated.serve limits progress.elapsed progress.world)[index]? = some call)
    (failed : call.failure? = some error) (counts : heeded error) :
    (run Fated.serve limits plan progress).1 = .ok (.error error.toQueryError) ∨
      ignored call.request ∧ ∀ other,
        run Fated.serve limits plan
            (progress.withFailure (progress.world.calls + index) other) =
          ((run Fated.serve limits plan progress).1,
            (run Fated.serve limits plan progress).2.withFailure
              (progress.world.calls + index) other) := by
  induction plan generalizing progress index with
  | done result => cases made
  | tally event next ih =>
    exact @ih { progress with tally := progress.tally.add event } index heeds made
  | poll next ih =>
    simp only [exchanges] at made
    simp only [run, Progress.withFailure]
    cases checked : limits.check progress.elapsed with
    | some interruption =>
      rw [checked] at made
      cases made
    | none =>
      rw [checked] at made
      exact ih heeds made
  | ask request next ih =>
    simp only [exchanges] at made
    simp only [run]
    rcases waited : limits.wait progress.elapsed (Fated.serve request progress.world).1.delay with
      ⟨moment, _ | interruption⟩
    · rw [waited] at made
      let reached : Progress (Fated σ) :=
        ⟨(Fated.serve request progress.world).2, moment, progress.tally⟩
      have counted : reached.world.calls = progress.world.calls + 1 := Fated.calls_serve ..
      cases index with
      | zero =>
        obtain rfl := Option.some_inj.1 made
        have answered : (Fated.serve request progress.world).1.answer = .error error :=
          Exchange.answer_of_failure? failed
        rcases heeds.1 with ends | ⟨permitted, same⟩
        · rw [answered, ends error counts]
          exact Or.inl rfl
        · refine Or.inr ⟨permitted, fun other => ?_⟩
          have fails := Fated.failure_of_serve_lookup (lookups request permitted) answered
          have served := Fated.serve_withFailure_self fails other
          have past : progress.world.calls < reached.world.calls := by omega
          simp only [Progress.withFailure, Nat.add_zero, served, waited]
          rw [same other error, ← answered]
          exact run_withFailure limits _ past other
      | succ index =>
        rcases @ih (Fated.serve request progress.world).1.answer reached index (heeds.2 _) made with
          ends | ⟨permitted, same⟩
        · exact Or.inl ends
        · refine Or.inr ⟨permitted, fun other => ?_⟩
          have apart : progress.world.calls ≠ progress.world.calls + (index + 1) := by omega
          have served := Fated.serve_withFailure apart request other
          have number : reached.world.calls + index = progress.world.calls + (index + 1) := by omega
          simp only [Progress.withFailure, served, waited]
          rw [← number]
          exact same other
    · rw [waited] at made
      cases made

end Plan

/-! ## Attempts that pass every failure on -/

namespace Graph

/-- Collecting the leaves under a source passes every failure on. -/
theorem passesOn_leavesUnder (depth : Nat) (path : List SourceId) (found : List (FlatLeaf σ))
    (source : Source σ) : (leavesUnder depth path found source).PassesOn := by
  induction depth generalizing path found source with
  | zero => exact Attempt.heeds_throw _
  | succ depth ih =>
    unfold leavesUnder
    cases source.kind with
    | leaf intensity => exact Attempt.heeds_pure _
    | aggregate children =>
      refine Attempt.Heeds.foldlM (fun found child => ?_) found
      dsimp only
      split
      · exact Attempt.heeds_throw _
      · refine Attempt.Heeds.bind ?_ fun source => ih _ _ source
        unfold resolveChild
        refine (Attempt.heeds_request _).bind fun defined => ?_
        cases defined with
        | none => exact Attempt.heeds_throw _
        | some source => exact Attempt.heeds_pure source

/-- Flattening a source passes every failure on. -/
theorem passesOn_flatten (id : SourceId) :
    (flatten id : Attempt σ (List (FlatLeaf σ))).PassesOn := by
  unfold flatten
  refine (passesOn_resolve id).bind fun root => ?_
  refine (Attempt.heeds_request _).bind fun count => ?_
  exact (passesOn_leavesUnder ..).bind fun found => Attempt.heeds_pure _

end Graph

/-- Finding the brackets of a list of targets passes every failure on. -/
theorem Bracket.passesOn_findAll (id : SourceId) (targets : List Instant) (field : Field) :
    (findAll id targets field : Attempt σ (List (Bracket σ))).PassesOn := by
  have passesOn_missing (target : Instant) :
      (missing id target field : Attempt σ QueryError).PassesOn := by
    refine (Attempt.heeds_request _).bind fun oldest => ?_
    cases oldest <;> exact Attempt.heeds_pure _
  unfold findAll
  split
  · split
    · exact Attempt.heeds_throw _
    · refine (Attempt.heeds_request _).bind fun lower => ?_
      cases lower with
      | none => exact (passesOn_missing _).bind fun error => Attempt.heeds_throw error
      | some lower =>
        refine (Attempt.heeds_request _).bind fun upper => ?_
        cases upper with
        | none => exact (passesOn_missing _).bind fun error => Attempt.heeds_throw error
        | some upper =>
          refine (Attempt.heeds_request _).bind fun (readings : List (Reading σ)) => ?_
          dsimp only
          split
          · exact Attempt.heeds_throw _
          · exact Attempt.heeds_ofExcept _
  · exact Attempt.heeds_pure _

namespace CheckpointCache

/-- Checking an interval passes every failure on. -/
theorem passesOn_checkInterval (start stop : Instant) :
    (checkInterval start stop : Attempt σ Unit).PassesOn := by
  unfold checkInterval
  split
  · exact Attempt.heeds_throw _
  · exact Attempt.heeds_pure ()

variable [Scalar σ]

/-- A raw lookup passes every failure on. -/
theorem passesOn_coldRead (id : SourceId) (time : Instant) :
    (coldRead id time : Attempt σ (CounterRead σ)).PassesOn :=
  (Bracket.passesOn_valueAt ..).bind fun _ => Attempt.heeds_pure _

/-- A power passes every failure on. -/
theorem passesOn_power (id : SourceId) (time : Instant) :
    (power id time : Attempt σ (Answer σ σ)).PassesOn := by
  refine (Graph.passesOn_flatten id).polled.bind fun leaves => ?_
  refine (Attempt.Heeds.foldlM (fun total flat => ?_) _).bind fun total => Attempt.heeds_pure _
  exact (Bracket.passesOn_valueAt ..).polled.bind fun value => Attempt.heeds_pure _

/-- A profile passes every failure on. -/
theorem passesOn_profile (id : SourceId) (start stop : Instant) (step : Span) :
    (profile id start stop step : Attempt σ (Answer σ (List (Bucket σ)))).PassesOn := by
  unfold profile
  refine (passesOn_checkInterval start stop).bind fun _ => ?_
  dsimp only
  split
  · exact Attempt.heeds_throw _
  · refine (Graph.passesOn_flatten id).polled.bind fun leaves => ?_
    split
    · exact Attempt.heeds_pure _
    · refine (Attempt.heeds_ofExcept _).bind fun edges => ?_
      refine (Attempt.Heeds.foldlM (fun buckets flat => ?_) _).bind fun buckets =>
        Attempt.heeds_pure _
      refine (Bracket.passesOn_findAll ..).polled.bind fun brackets => ?_
      exact (Attempt.heeds_ofExcept _).bind fun counters => Attempt.heeds_pure _

end CheckpointCache

/-! ## Attempts that ignore some failures -/

/-- A call for an offer: a lookup around the grid instant before one of some instants that is older
than the window of a leaf whose counter is kept. -/
def CheckpointCache.AsksForOffer (cache : CheckpointCache σ) (now : Instant) (times : List Instant)
    (request : Request σ) : Prop :=
  ∃ leaf settings time boundary, cache.settingsFor? leaf = some settings ∧ time ∈ times ∧
    settings.window < now.since time ∧ (leaf.grid settings).floor? time = some boundary ∧
    request.IsAround leaf.id boundary .cumulativeEnergy

/-- A call for an offer is a lookup. -/
theorem CheckpointCache.AsksForOffer.isLookup {cache : CheckpointCache σ} {now : Instant}
    {times : List Instant} {request : Request σ} (asks : cache.AsksForOffer now times request) :
    request.IsLookup := by
  obtain ⟨leaf, settings, time, boundary, _, _, _, _, around⟩ := asks
  exact around.isLookup

namespace CheckpointCache

variable [Scalar σ] {cache : CheckpointCache σ} {now : Instant} {times : List Instant}
  {ignored : Request σ → Prop}

/-- A lookup from the readings with an offer heeds cancellations of all calls but those around the
grid instant. -/
theorem heeds_coldReadWithOffer {id : SourceId} {boundary : Instant}
    (offers : ∀ request, request.IsAround id boundary .cumulativeEnergy → ignored request)
    (time : Instant) (window : Span) (now : Instant) :
    (coldReadWithOffer id boundary time window now : Attempt σ (CounterRead σ)).Heeds
      StoreError.IsCancelled ignored := by
  refine (Attempt.heeds_tally _).bind fun _ => ?_
  refine (passesOn_coldRead id time).heeds.bind fun read => ?_
  have asks : (Bracket.find id boundary .cumulativeEnergy : Attempt σ (Bracket σ)).Uses ignored
      fun _ => False :=
    Plan.Uses.imp (Bracket.asks_find id boundary .cumulativeEnergy) offers fun _ never => never
  exact Attempt.Heeds.ignore (Bracket.passesOn_find ..) asks (fun _ _ => rfl) fun bracket =>
    Attempt.heeds_pure _

/-- A lookup from a checkpoint heeds cancellations of all calls but those around the grid
instant. -/
theorem heeds_warmRead {id : SourceId} {boundary : Instant}
    (offers : ∀ request, request.IsAround id boundary .cumulativeEnergy → ignored request)
    (checkpoint : Checkpoint σ) (time : Instant) (window : Span) (now : Instant) :
    (warmRead checkpoint id boundary time window now).Heeds StoreError.IsCancelled ignored := by
  refine Attempt.Heeds.outcome_bind (Checkpoint.passesOn_counterFrom checkpoint time).heeds ?_ ?_
  · rintro _ ⟨reason, rfl⟩
    rfl
  · intro outcome
    cases outcome with
    | ok value => exact (Attempt.heeds_tally _).bind fun _ => Attempt.heeds_pure _
    | error error =>
      cases error with
      | storage reason =>
        exact (Attempt.heeds_tally _).bind fun _ => heeds_coldReadWithOffer offers time window now
      | _ => exact Attempt.heeds_throw _

/-- A lookup of a counter heeds cancellations of all calls but those for an offer. -/
theorem heeds_counterAt (cache : CheckpointCache σ) (source : Source σ) {time : Instant}
    (now : Instant) (member : time ∈ times) :
    (cache.counterAt source time now).Heeds StoreError.IsCancelled
      (cache.AsksForOffer now times) := by
  unfold counterAt
  cases kept : cache.settingsFor? source with
  | none => exact (Attempt.heeds_tally _).bind fun _ => (passesOn_coldRead ..).heeds
  | some settings =>
    dsimp only
    split
    · exact (Attempt.heeds_tally _).bind fun _ => (passesOn_coldRead ..).heeds
    · rename_i recent
      have old : settings.window < now.since time := Int.not_le.1 recent
      split
      · exact (Attempt.heeds_tally _).bind fun _ => (passesOn_coldRead ..).heeds
      · rename_i boundary floor
        have offers : ∀ request : Request σ,
            request.IsAround source.id boundary .cumulativeEnergy →
              cache.AsksForOffer now times request :=
          fun request around => ⟨source, settings, time, boundary, kept, member, old, floor, around⟩
        split
        · exact heeds_warmRead offers _ time settings.window now
        · exact heeds_coldReadWithOffer offers time settings.window now

/-- The energy of a leaf heeds cancellations of all calls but those for an offer. -/
theorem heeds_leafEnergy (cache : CheckpointCache σ) (leaf : Source σ) (start stop now : Instant)
    (found : List (Checkpoint σ)) :
    (cache.leafEnergy leaf start stop now found).Heeds StoreError.IsCancelled
      (cache.AsksForOffer now [start, stop]) := by
  have here : start ∈ [start, stop] := List.mem_cons_self
  have there : stop ∈ [start, stop] := List.mem_cons_of_mem _ (List.mem_singleton_self stop)
  refine (heeds_counterAt cache leaf now here).polled.bind fun first => ?_
  exact (heeds_counterAt cache leaf now there).polled.bind fun last => Attempt.heeds_pure _

/-- A sum over leaves heeds cancellations of all calls but those for an offer. -/
theorem heeds_sumEnergies (cache : CheckpointCache σ)
    (weigh : Source σ → σ → Except QueryError σ) (id : SourceId) (start stop now : Instant) :
    (cache.sumEnergies weigh id start stop now).Heeds StoreError.IsCancelled
      (cache.AsksForOffer now [start, stop]) := by
  unfold sumEnergies
  refine (passesOn_checkInterval start stop).heeds.bind fun _ => ?_
  refine (Graph.passesOn_flatten id).heeds.polled.bind fun leaves => ?_
  split
  · exact Attempt.heeds_pure _
  · refine (Attempt.Heeds.foldlM (fun sofar flat => ?_) _).bind fun total => Attempt.heeds_pure _
    refine (heeds_leafEnergy cache flat.leaf start stop now sofar.2).bind fun energy => ?_
    exact (Attempt.heeds_ofExcept _).bind fun weighed => Attempt.heeds_pure _

/-- A mean power heeds cancellations of all calls but those for an offer. -/
theorem heeds_averagePower (cache : CheckpointCache σ) (id : SourceId)
    (start stop now : Instant) :
    (cache.averagePower id start stop now).Heeds StoreError.IsCancelled
      (cache.AsksForOffer now [start, stop]) := by
  unfold averagePower
  refine (passesOn_checkInterval start stop).heeds.bind fun _ => ?_
  dsimp only
  split
  · exact Attempt.heeds_throw _
  · exact (heeds_sumEnergies ..).bind fun answer => Attempt.heeds_pure _

/-- A query of a counter heeds cancellations of all calls but those for an offer. -/
theorem heeds_counterQuery (cache : CheckpointCache σ) (id : SourceId) (time now : Instant) :
    (cache.counterQuery id time now).Heeds StoreError.IsCancelled
      (cache.AsksForOffer now [time]) := by
  unfold counterQuery
  refine (Graph.passesOn_resolve id).heeds.polled.bind fun source => ?_
  dsimp only
  split
  · exact Attempt.heeds_throw _
  · exact (heeds_counterAt cache source now (List.mem_singleton_self time)).polled.bind fun read =>
      Attempt.heeds_pure _

end CheckpointCache

/-! ## Inquiries -/

namespace Inquiry

/-- The instants at which an inquiry looks counters up in the cache. -/
def instants : Inquiry σ α → List Instant
  | query asked => asked.instants
  | power _ _ => []
  | profile _ _ _ _ => []

/-- An inquiry heeds cancellations of all calls but those for an offer. -/
theorem heeds_attempt [Scalar σ] (cache : CheckpointCache σ) (now : Instant)
    (inquiry : Inquiry σ α) :
    (inquiry.attempt cache now).Heeds StoreError.IsCancelled
      (cache.AsksForOffer now inquiry.instants) := by
  cases inquiry with
  | query asked =>
    cases asked with
    | counterAt id time => exact CheckpointCache.heeds_counterQuery cache id time now
    | energy id start stop =>
      exact CheckpointCache.heeds_sumEnergies cache (fun _ energy => .ok energy) id start stop now
    | carbon id start stop =>
      exact CheckpointCache.heeds_sumEnergies cache CheckpointCache.carbonOf id start stop now
    | averagePower id start stop =>
      exact CheckpointCache.heeds_averagePower cache id start stop now
  | power id time => exact (CheckpointCache.passesOn_power id time).heeds
  | profile id start stop step => exact (CheckpointCache.passesOn_profile id start stop step).heeds

end Inquiry

namespace Engine

variable [Scalar σ]

/-- The calls that are made for an inquiry, in order. -/
def callsFor (engine : Engine σ (Fated σ)) (limits : Limits) (inquiry : Inquiry σ α) :
    List (Exchange σ) :=
  Plan.exchanges Fated.serve limits (inquiry.attempt engine.cache engine.now).run
    engine.progress.elapsed engine.progress.world

/-- An inquiry whose plan ends with an error fails with it and leaves the cache as it was. -/
theorem inquire_of_run_error {engine : Engine σ (Fated σ)} {limits : Limits}
    {inquiry : Inquiry σ α} {error : QueryError}
    (ends : (Plan.run Fated.serve limits (inquiry.attempt engine.cache engine.now).run
      engine.progress).1 = .ok (.error error)) :
    (engine.inquire Fated.serve limits inquiry).1 = .error error ∧
      (engine.inquire Fated.serve limits inquiry).2.cache = engine.cache := by
  rcases ran : Plan.run Fated.serve limits (inquiry.attempt engine.cache engine.now).run
    engine.progress with ⟨outcome, after⟩
  rw [ran] at ends
  obtain rfl : outcome = .ok (.error error) := ends
  unfold inquire query perform
  rw [ran]
  exact ⟨rfl, rfl⟩

/-- An inquiry whose plan runs the same if a call fails in another way comes to the same. -/
theorem inquire_withFailure {engine : Engine σ (Fated σ)} {limits : Limits}
    {inquiry : Inquiry σ α} {number : Nat} {error : StoreError}
    (same : Plan.run Fated.serve limits (inquiry.attempt engine.cache engine.now).run
        (engine.progress.withFailure number error) =
      ((Plan.run Fated.serve limits (inquiry.attempt engine.cache engine.now).run
          engine.progress).1,
        (Plan.run Fated.serve limits (inquiry.attempt engine.cache engine.now).run
          engine.progress).2.withFailure number error)) :
    (engine.withFailure number error).inquire Fated.serve limits inquiry =
      ((engine.inquire Fated.serve limits inquiry).1,
        (engine.inquire Fated.serve limits inquiry).2.withFailure number error) := by
  rcases ran : Plan.run Fated.serve limits (inquiry.attempt engine.cache engine.now).run
    engine.progress with ⟨outcome, after⟩
  rw [ran] at same
  unfold inquire query perform withFailure
  simp only [same, ran]
  cases outcome with
  | error interruption => rfl
  | ok result => cases result <;> rfl

/-- If a call of an inquiry fails because the query has been cancelled, the inquiry fails with that
cancellation and leaves the cache as it was, whatever else fails and whatever the limits are, or the
call is one for an offer alone, and its failure is ignored: the inquiry comes to what it comes to if
that call fails with any other error. -/
theorem inquire_heeds_cancellation (engine : Engine σ (Fated σ)) (limits : Limits)
    (inquiry : Inquiry σ α) {index : Nat} {call : Exchange σ} {reason : String}
    (made : (engine.callsFor limits inquiry)[index]? = some call)
    (cancelled : call.failure? = some (.rejected (.cancelled reason))) :
    let asked := engine.inquire Fated.serve limits inquiry
    asked.1 = .error (.cancelled reason) ∧ asked.2.cache = engine.cache ∨
      engine.cache.AsksForOffer engine.now inquiry.instants call.request ∧
        ∀ error,
          let number := engine.progress.world.calls + index
          (engine.withFailure number error).inquire Fated.serve limits inquiry =
            (asked.1, asked.2.withFailure number error) := by
  intro asked
  have spec := Plan.run_of_heeds (inquiry.heeds_attempt engine.cache engine.now)
    (fun _ asks => asks.isLookup) limits made cancelled ⟨reason, rfl⟩
  rcases spec with ends | ⟨asks, same⟩
  · exact Or.inl (inquire_of_run_error ends)
  · exact Or.inr ⟨asks, fun error => inquire_withFailure (same error)⟩

/-- An energy asks for its leaves by two calls and for the first counter by four, two of them for an
offer. The last of these six is refused because the query has been cancelled. The energy is answered
all the same, with the second counter's checkpoint kept, as whatever error the call fails with. -/
theorem inquire_heeds_cancellation_missed :
    let engine := failing [5] (.rejected (.cancelled "nearest_after rejected"))
    let inquiry := Inquiry.query (Query.energy "meter" (atMinute 75) (atMinute 135))
    let asked := engine.inquire Fated.serve .none inquiry
    ((engine.callsFor .none inquiry)[5]?.bind Exchange.failure?) =
        some (.rejected (.cancelled "nearest_after rejected")) ∧
      asked.1 = .ok 2 ∧
      (asked.2.cache.seriesOf "meter").entries = [⟨"meter", atMinute 120, 4, atMinute 1440⟩] ∧
      ∀ error, (engine.withFailure 5 error).inquire Fated.serve .none inquiry =
        (asked.1, asked.2.withFailure 5 error) := by
  intro engine inquiry asked
  have refused : ((engine.callsFor .none inquiry)[5]?.bind Exchange.failure?) =
      some (.rejected (.cancelled "nearest_after rejected")) := by decide +kernel
  have answered : asked.1 = .ok 2 := by decide +kernel
  have kept : (asked.2.cache.seriesOf "meter").entries =
      [⟨"meter", atMinute 120, 4, atMinute 1440⟩] := by decide +kernel
  obtain ⟨call, made, cancelled⟩ := Option.bind_eq_some_iff.1 refused
  rcases inquire_heeds_cancellation engine .none inquiry made cancelled with
    ⟨ends, _⟩ | ⟨_, same⟩
  · cases answered.symm.trans ends
  · exact ⟨refused, answered, kept, same⟩

end Engine

end Metering
