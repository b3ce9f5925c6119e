import Alerting.Proofs.Engine.TestFire
import Alerting.Proofs.Properties

/-!
# What records keep of events

The record of a fire keeps the properties of the event as a text, from which they are read back if
the numbers among them are finite. A number that is not finite is written as `null`, which is not
read as a property.
-/

namespace Alerting

/-! ## Records of fires -/

def Record.snapshot? (record : Record) : Option Properties := Properties.read? record.eventData

def Handling.triggers (event : Event) (handling : Handling) : List (UInt64 × Properties) :=
  handling.fired.map fun id => (id, event.properties)

theorem Covers.map {A B : Type} {strict : Bool} {told all : List A}
    (covers : Covers strict told all) (value : A → B) :
    Covers strict (told.map value) (all.map value) :=
  ⟨covers.1.map value, fun exact => congrArg (List.map value) (covers.2 exact)⟩

/-- The records that an engine adds to, the latest first, and how the store replies to the engine
within its deadline. -/
structure Archive where
  history : List Record
  saving : Reply
  limit : Nat

namespace Archive

def inTime (archive : Archive) : Bool := archive.saving.inTime archive.limit

def Tells (before : Archive) (fires : List (UInt64 × Properties)) (after : Archive) : Prop :=
  ∃ rows : List Record, after = { before with history := rows.reverse ++ before.history } ∧
    Covers before.inTime (rows.map fun row => (row.ruleId, row.eventData))
      (fires.map fun fire => (fire.1, fire.2.toJson.compact))

def LeadsTo (before : Archive) (fires : List (UInt64 × Properties)) (seen : Option Archive) :
    Prop :=
  ∃ after, seen = some after ∧ before.Tells fires after

variable {before between after : Archive} {first second : List (UInt64 × Properties)}

theorem tells_nil (archive : Archive) : archive.Tells [] archive :=
  ⟨[], rfl, covers_self ..⟩

theorem Tells.trans (start : before.Tells first between) (rest : between.Tells second after) :
    before.Tells (first ++ second) after := by
  obtain ⟨rows, rfl, told⟩ := start
  obtain ⟨others, rfl, told'⟩ := rest
  refine ⟨rows ++ others, by simp, ?_⟩
  rw [List.map_append, List.map_append]
  exact told.append told'

end Archive

namespace Installation

open Activity

def archiveOf (installation : Installation) (station : Station) : Option Archive :=
  some
    { history := installation.store.history
      saving := installation.conduct.saving
      limit := station.engine.settings.saveHistoryTimeoutMillis.toNat }

def archiveAt (index : Nat) (installation : Installation) : Option Archive :=
  installation.stations[index]?.bind (archiveOf installation)

variable {index : Nat} {archive : Archive}

theorem archiveAt_eq_some {installation : Installation}
    (shows : archiveAt index installation = some archive) :
    ∃ station, installation.stations[index]? = some station ∧
      archive.history = installation.store.history ∧
      archive.saving = installation.conduct.saving ∧
      archive.limit = station.engine.settings.saveHistoryTimeoutMillis.toNat := by
  obtain ⟨station, present, same⟩ := Option.bind_eq_some_iff.mp shows
  cases same
  exact ⟨station, present, rfl, rfl, rfl⟩

theorem archiveAt_save {installation : Installation} (record : Record)
    (shows : archiveAt index installation = some archive) :
    ∃ id, archiveAt index { installation with store := (installation.store.save record).2 } =
      some { archive with history := { record with id } :: archive.history } := by
  obtain ⟨station, present, same⟩ := Option.bind_eq_some_iff.mp shows
  cases same
  exact ⟨installation.store.lastRecordId + 1, Option.bind_eq_some_iff.mpr ⟨station, present, rfl⟩⟩

theorem archive_askEngine {A : Type} {absent : A} {change : Engine → A × Engine}
    (settings : ∀ engine, (change engine).2.settings = engine.settings) :
    (askEngine index absent change).Ensures (archiveAt index) (fun _ next => next = some archive)
      (some archive) := by
  have ensures : (askEngine index absent change).Ensures (archiveAt index)
      (fun _ next => ∃ after, next = some after ∧ after = archive) (some archive) := by
    refine ensures_askEngine archiveOf (fun _ _ => rfl) ?_
    rintro installation station ⟨⟩
    exact ⟨_, rfl, by rw [settings]⟩
  exact ensures.imp fun _ _ ⟨_, shows, same⟩ => same ▸ shows

theorem archive_modifyEngine {change : Engine → Engine}
    (settings : ∀ engine, (change engine).settings = engine.settings) :
    (modifyEngine index change).Ensures (archiveAt index) (fun _ next => next = some archive)
      (some archive) := by
  have asked : (askEngine index () fun engine => ((), change engine)).Ensures (archiveAt index)
      (fun _ next => next = some archive) (some archive) := archive_askEngine settings
  exact asked

theorem archive_saveFire (rule : Rule) (event : Event) (now : Instant) (archive : Archive) :
    (saveFire (Engine.recordOf rule event now) archive.limit).Ensures (archiveAt index)
      (fun _ next => archive.LeadsTo [(rule.id, event.properties)] next) (some archive) := by
  apply ensures_saveFire_of
  · intro installation shows
    obtain ⟨id, saved⟩ := archiveAt_save (Engine.recordOf rule event now) shows
    exact ⟨_, saved, [{ Engine.recordOf rule event now with id }], rfl, covers_self ..⟩
  · intro source shows late
    obtain ⟨station, -, -, saving, -⟩ := archiveAt_eq_some shows
    rw [← saving] at late
    exact ⟨archive, rfl, [], rfl, List.nil_sublist _, fun inTime => absurd inTime late⟩

theorem archive_fire (rule : Rule) (event : Event) (now : Instant) (archive : Archive) :
    (fire index rule event now).Ensures (archiveAt index)
      (fun _ next => archive.LeadsTo [(rule.id, event.properties)] next) (some archive) := by
  apply ensures_get.bind
  rintro source _ ⟨shows, rfl⟩
  obtain ⟨station, present, -, -, limit⟩ := archiveAt_eq_some shows
  simp only [present, ← limit]
  apply (archive_saveFire rule event now archive).bind
  rintro _ _ ⟨after, rfl, tells⟩
  cases station.sink with
  | none => exact ⟨after, rfl, tells⟩
  | some sink =>
      apply (quiet_handOver (fun _ _ => rfl) ..).spares.ensures.bind
      rintro report _ rfl
      by_cases recorded : station.recorded
      · rw [if_pos recorded]
        intro installation shows
        exact ⟨after, shows, tells⟩
      · rw [if_neg recorded]
        exact ⟨after, rfl, tells⟩

theorem archive_decide (event : Event) (now : Instant) {handling : Handling} {rules : List Rule}
    {current : Archive}
    (told : archive.Tells (handling.triggers event) current) :
    (decide index event now handling rules).Ensures (archiveAt index)
      (fun handling next => archive.LeadsTo (handling.triggers event) next) (some current) := by
  let invariant (handling : Handling) (_ : List Rule) (found : Option Archive) : Prop :=
    archive.LeadsTo (handling.triggers event) found
  have kept : ∀ handling rule pending found, invariant handling (rule :: pending) found →
      (askEngine index .unmatched fun engine => engine.consider rule event now).Ensures
        (archiveAt index)
        (fun verdict next =>
          if verdict = .fires then
            (fire index rule event now).Ensures (archiveAt index)
              (fun _ after => invariant (handling.add rule .fires) pending after) next
          else invariant (handling.add rule verdict) pending next) found := by
    rintro handling rule pending _ ⟨current, rfl, told⟩
    apply (archive_askEngine fun _ => Engine.settings_consider).imp
    rintro verdict _ rfl
    by_cases fires : verdict = .fires
    · rw [if_pos fires]
      apply (archive_fire rule event now current).imp
      rintro _ _ ⟨after, rfl, fired⟩
      refine ⟨after, rfl, ?_⟩
      rw [Handling.triggers, Handling.fired_add, List.map_append]
      exact told.trans fired
    · rw [if_neg fires]
      refine ⟨current, rfl, ?_⟩
      rw [Handling.triggers, Handling.fired_add, if_neg fires, List.append_nil]
      exact told
  exact ensures_decide kept ⟨current, rfl, told⟩

theorem spares_now_archive : Installation.now.Spares (archiveAt index) :=
  ⟨fun _ => rfl, fun _ => trivial⟩

theorem archive_handle (event : Event) (archive : Archive) :
    (handle index event).Ensures (archiveAt index)
      (fun handling next => archive.LeadsTo (handling.triggers event) next) (some archive) := by
  have judged (now : Instant) : ((askEngine index (false, []) fun engine =>
      (((engine.observe event now).1, (engine.observe event now).2.rules),
        (engine.observe event now).2)) >>= fun answer =>
        decide index event now { recorded := answer.1 } answer.2).Ensures (archiveAt index)
      (fun handling next => archive.LeadsTo (handling.triggers event) next) (some archive) := by
    refine (archive_askEngine fun engine => ?_).bind ?_
    · rw [Engine.observe_eq]
    · rintro answer _ rfl
      exact archive_decide event now archive.tells_nil
  cases timely : event.timestamp with
  | some now =>
      rw [handle_eq timely]
      exact judged now
  | none =>
      unfold handle
      rw [timely]
      apply spares_now_archive.ensures.bind
      rintro now _ rfl
      exact judged now

/-! ## Requests -/

def Response.triggers : Request → Response → List (UInt64 × Properties)
  | .handle event, .handled handling => handling.triggers event
  | .testFire rule, .testFired =>
      [(rule.id, Properties.empty.insert PropertyName.test (.bool true))]
  | _, _ => []

def allTriggers (requests : List Request) (responses : List Response) :
    List (UInt64 × Properties) :=
  (requests.zip responses).flatMap fun pair => pair.2.triggers pair.1

theorem archive_serve (request : Request) (archive : Archive) :
    (serve index request).Ensures (archiveAt index)
      (fun response next => archive.LeadsTo (response.triggers request) next) (some archive) := by
  cases request with
  | handle event =>
      apply (archive_handle event archive).bind
      rintro handling _ ⟨after, rfl, tells⟩
      exact ⟨after, rfl, tells⟩
  | refresh =>
      have refreshes : (refresh index).run.Ensures (archiveAt index)
          (fun _ next => next = some archive) (some archive) := by
        apply ensures_listEnabledRules.run_bind
        · rintro rules _ ⟨rfl, -⟩
          refine (archive_modifyEngine ?_).lift_bind ?_
          · exact fun _ => rfl
          · rintro _ _ rfl
            rfl
        · rintro fault _ ⟨rfl, -⟩
          rfl
      apply refreshes.bind
      rintro outcome _ rfl
      exact ⟨archive, rfl, archive.tells_nil⟩
  | testFire rule =>
      have fires : (testFire index rule).Ensures (archiveAt index)
          (fun _ next => archive.LeadsTo (Response.testFired.triggers (.testFire rule)) next)
          (some archive) := by
        apply spares_now_archive.ensures.bind
        rintro now _ rfl
        refine (archive_modifyEngine ?_).bind ?_
        · exact fun _ => rfl
        · rintro _ _ rfl
          exact archive_fire rule (Engine.testEvent rule now) now archive
      apply fires.bind
      rintro _ _ ⟨after, rfl, tells⟩
      exact ⟨after, rfl, tells⟩
  | cooldownRemaining id now =>
      apply (archive_askEngine fun _ => rfl).bind
      rintro remaining _ rfl
      exact ⟨archive, rfl, archive.tells_nil⟩

/-! ## Runs -/

variable {requests : List Request} {responses : List Response} {first last : Installation}
  {start final : Archive}

theorem archive_of_chain
    (chain : Chain (fun before request response after =>
      Archive.Tells before (response.triggers request) after) start requests responses final) :
    start.Tells (allTriggers requests responses) final := by
  induction chain with
  | nil state => exact state.tells_nil
  | cons first rest ih => exact first.trans ih

theorem exists_archive (present : archiveAt index first = some start)
    (ends : Ends (archiveAt index) (requests.mapM (serve index)) first responses last) :
    ∃ final, archiveAt index last = some final ∧
      start.Tells (allTriggers requests responses) final := by
  obtain ⟨final, shows, chain⟩ := ends.chain (fun request _ => archive_serve request) present
  exact ⟨final, shows, archive_of_chain chain⟩

def Request.numbers : Request → List Number
  | .handle event => event.properties.numbers
  | _ => []

theorem read?_of_mem_triggers {request : Request} {response : Response}
    (reads : ∀ number ∈ request.numbers, Json.ReadsBack number) {trigger : UInt64 × Properties}
    (mem : trigger ∈ response.triggers request) :
    Properties.read? trigger.2.toJson.compact = some trigger.2 := by
  unfold Response.triggers at mem
  split at mem
  · obtain ⟨id, -, rfl⟩ := List.mem_map.mp mem
    exact Properties.read?_compact reads
  · rw [List.mem_singleton.mp mem]
    exact Properties.read?_compact nofun
  · contradiction

/-- The records of a run belong to the rules that fired, in their order, and from each of them the
properties of its event are read back as they were; a rule that fired has no record only if records
are not saved in time. -/
theorem snapshots_of_fires
    (finite : ∀ request ∈ requests, ∀ number ∈ request.numbers, number.isFinite = true)
    (library : ∀ request ∈ requests, ∀ number ∈ request.numbers,
      number.isFinite = true → Json.ReadsBack number)
    (present : archiveAt index first = some start)
    (ends : Ends (archiveAt index) (requests.mapM (serve index)) first responses last) :
    ∃ (final : Archive) (rows : List Record), archiveAt index last = some final ∧
      final.history = rows.reverse ++ start.history ∧
      Covers start.inTime (rows.map fun row => (row.ruleId, row.snapshot?))
        ((allTriggers requests responses).map fun trigger => (trigger.1, some trigger.2)) := by
  obtain ⟨final, shows, rows, rfl, covers⟩ := exists_archive present ends
  refine ⟨_, rows, shows, rfl, ?_⟩
  have read : ∀ trigger ∈ allTriggers requests responses,
      Properties.read? trigger.2.toJson.compact = some trigger.2 := by
    intro trigger mem
    obtain ⟨⟨request, response⟩, served, mem⟩ := List.mem_flatMap.mp mem
    have asked := (List.of_mem_zip served).1
    exact read?_of_mem_triggers (fun number isNumber =>
      library request asked number isNumber (finite request asked number isNumber)) mem
  have decoded := covers.map fun row => (row.1, Properties.read? row.2)
  rw [List.map_map, List.map_map] at decoded
  have same : (allTriggers requests responses).map
        ((fun row => (row.1, Properties.read? row.2)) ∘
          fun fire => (fire.1, fire.2.toJson.compact)) =
      (allTriggers requests responses).map fun trigger => (trigger.1, some trigger.2) :=
    List.map_congr_left fun trigger mem => by simp [read trigger mem]
  rw [same] at decoded
  exact decoded

def oddProperties : Properties :=
  .ofList
    [("\"quoted\" \\ \n\x01", .text "null"), ("", .text ""), ("größe 😀", .text "1e3"),
     ("on", .bool true), ("ratio", .number (.ofDecimal true ⟨25, -2⟩)),
     ("most", .number (.ofDecimal false ⟨1, 300⟩)), ("sign", .number (.signed true .zero)),
     ("value", .text "true")]

def arrival : Event := { Event.occurrence "host" "up" with properties := oddProperties }

def arrivals : List Request :=
  [.handle arrival, .testFire greeting, .handle (restart 400), .refresh]

def arrivalsTold : List Response :=
  [.handled { recorded := false, evaluated := 1, matched := 1, fired := [1] }, .testFired,
   .handled { recorded := false, evaluated := 1, matched := 1, fired := [1] }, .refreshed (.ok 0)]

def emptyArchive : Archive := { history := [], saving := .delayed 5, limit := 3000 }

theorem snapshots_of_fires_of_arrivals :
    ∃ (last : Installation) (final : Archive) (rows : List Record),
      archiveAt 0 last = some final ∧ final.history = rows.reverse ++ emptyArchive.history ∧
        rows.map (fun row => (row.ruleId, row.snapshot?)) =
          [(1, some oddProperties),
           (1, some (Properties.empty.insert PropertyName.test (.bool true))),
           (1, some Properties.empty)] := by
  have present : archiveAt 0 (withEngine [greeting] { saving := .delayed 5 } none) =
      some emptyArchive := rfl
  have ends : ∃ last, Ends (archiveAt 0) (arrivals.mapM (serve 0))
      (withEngine [greeting] { saving := .delayed 5 } none) arrivalsTold last :=
    exists_ends_of_run (fun _ _ => rfl) (by decide +kernel)
  obtain ⟨last, ends⟩ := ends
  have reads : ∀ request ∈ arrivals, ∀ number ∈ request.numbers,
      number.isFinite = true ∧ Json.ReadsBack number := by
    decide +kernel
  obtain ⟨final, rows, shows, history, covers⟩ := snapshots_of_fires
    (fun request mem number isNumber => (reads request mem number isNumber).1)
    (fun request mem number isNumber _ => (reads request mem number isNumber).2) present ends
  exact ⟨last, final, rows, shows, history, covers.2 (by decide)⟩

def overflow : Event :=
  { restart 0 with
    properties := Properties.empty.insert PropertyName.value (.number .infinity) }

/-- From the record of an event with an infinite number nothing can be read. -/
theorem not_forall_snapshots_of_fires :
    ¬∀ (index : Nat) (requests : List Request) (responses : List Response)
      (first last : Installation) (start : Archive),
      (∀ request ∈ requests, ∀ number ∈ request.numbers, number ≠ .nan) →
      (∀ request ∈ requests, ∀ number ∈ request.numbers,
        number.isFinite = true → Json.ReadsBack number) →
      archiveAt index first = some start →
      Ends (archiveAt index) (requests.mapM (serve index)) first responses last →
      ∃ (final : Archive) (rows : List Record), archiveAt index last = some final ∧
        final.history = rows.reverse ++ start.history ∧
        Covers start.inTime (rows.map fun row => (row.ruleId, row.snapshot?))
          ((allTriggers requests responses).map fun trigger => (trigger.1, some trigger.2)) := by
  intro lossless
  have ends : ∃ last, Ends (archiveAt 0) ([.handle overflow].mapM (serve 0))
      (withEngine [greeting] {} none)
      [.handled { recorded := false, evaluated := 1, matched := 1, fired := [1] }] last :=
    exists_ends_of_run (fun _ _ => rfl) (by decide +kernel)
  obtain ⟨last, ends⟩ := ends
  obtain ⟨final, shows, rows, rfl, texts⟩ := exists_archive rfl ends
  obtain ⟨found, others, same, history, covers⟩ := lossless 0 [.handle overflow] _ _ _ _
    (by decide +kernel) (by decide +kernel) rfl ends
  cases same.symm.trans shows
  cases List.reverse_injective (List.append_cancel_right history)
  have text := congrArg (List.map fun row => Properties.read? row.2) (texts.2 (by decide))
  have read := congrArg (List.map Prod.snd) (covers.2 (by decide))
  rw [List.map_map] at text read
  exact absurd (text.symm.trans read) (by decide +kernel)

end Installation

end Alerting
