import Alerting.Proofs.Engine.Service

/-!
# One log of fires

What an engine answers, the records in the store and what was handed to its sink tell of the same
fires in the same order, as long as records are saved in time and there is a sink. Otherwise the
records and the notifications still tell of nothing else.
-/

namespace Alerting

def Reply.inTime (limit : Nat) : Reply → Bool
  | prompt => true
  | delayed millis => min millis Activity.longestPause ≤ limit
  | never => false
  | refused _ => false

theorem Reply.finalAnswer_of_inTime {limit : Nat} {reply : Reply}
    (inTime : reply.inTime limit = true) : reply.finalAnswer limit = .granted := by
  cases reply with
  | prompt => rfl
  | delayed millis => exact if_pos (of_decide_eq_true inTime)
  | never => cases inTime
  | refused reason => cases inTime

theorem Reply.ensures_answerWithin {State V : Type} [Timed State] {view : State → V} {seen : V}
    (limit : Nat) (reply : Reply) :
    (reply.answerWithin limit : Activity State Answer).Ensures view
      (fun answer next => next = seen ∧ (reply.inTime limit = true → answer = .granted)) seen := by
  rcases reply.answerWithin_eq State limit with same | ⟨millis, same⟩
  · rw [same]
    exact ⟨rfl, finalAnswer_of_inTime⟩
  · rw [same]
    apply (Activity.quiet_elapse millis).spares.ensures.bind
    rintro _ _ rfl
    exact ⟨rfl, finalAnswer_of_inTime⟩

theorem Installation.ensures_saveFire_of {V : Type} {view : Installation → V} {seen : V}
    {record : Record} {limit : Nat} {post : V → Prop}
    (saved : ∀ installation, view installation = seen →
      post (view { installation with store := (installation.store.save record).2 }))
    (unsaved : ∀ installation, view installation = seen →
      ¬installation.conduct.saving.inTime limit = true → post seen) :
    (saveFire record limit).Ensures view (fun _ next => post next) seen := by
  apply Activity.ensures_get.bind
  rintro source seen ⟨shows, rfl⟩
  apply (Reply.ensures_answerWithin ..).bind
  rintro answer seen ⟨rfl, granted⟩
  have failed (refused : answer ≠ .granted) : post seen :=
    unsaved source shows fun inTime => refused (granted inTime)
  cases answer with
  | granted => exact saved
  | refused reason => exact failed nofun
  | late => exact failed nofun

structure Ledger where
  engine : Engine
  history : List Record
  lastRecordId : UInt64
  dispatches : List DispatchEntry

namespace Ledger

/-! ## Numbers of records -/

def consecutive (last : UInt64) : Nat → List UInt64
  | 0 => []
  | count + 1 => (last + 1) :: consecutive (last + 1) count

theorem consecutive_add (last : UInt64) (first second : Nat) :
    consecutive last (first + second) =
      consecutive last first ++ consecutive (last + .ofNat first) second := by
  induction first generalizing last with
  | zero => simp [consecutive]
  | succ first ih =>
      rw [Nat.succ_add, consecutive, ih, consecutive, List.cons_append, UInt64.ofNat_add,
        UInt64.add_assoc, UInt64.add_comm 1]
      rfl

variable {last : UInt64} {count : Nat}

theorem lt_of_mem_consecutive {id : UInt64} (bound : last.toNat + count < UInt64.size)
    (mem : id ∈ consecutive last count) : last < id := by
  induction count generalizing last with
  | zero => cases mem
  | succ count ih =>
      have next : (last + 1).toNat = last.toNat + 1 := toNat_add_one (by omega)
      have grows : last < last + 1 := lt_add_one (by omega)
      rcases List.mem_cons.mp mem with rfl | later
      · exact grows
      · exact UInt64.lt_trans grows (ih (by omega) later)

theorem pairwise_consecutive (bound : last.toNat + count < UInt64.size) :
    (consecutive last count).Pairwise (· < ·) := by
  induction count generalizing last with
  | zero => exact .nil
  | succ count ih =>
      have next : (last + 1).toNat + count < UInt64.size := by
        rw [toNat_add_one (by omega)]
        omega
      exact .cons (fun _ mem => lt_of_mem_consecutive next mem) (ih next)

end Ledger

/-! ## Telling of fires -/

/-- Whether a list tells of others in their order; a strict one leaves nothing out. -/
def Covers {A : Type} (strict : Bool) (told all : List A) : Prop :=
  told.Sublist all ∧ (strict = true → told = all)

theorem Covers.append {A : Type} {strict : Bool} {told all others rest : List A}
    (first : Covers strict told all) (second : Covers strict others rest) :
    Covers strict (told ++ others) (all ++ rest) :=
  ⟨first.1.append second.1, fun exact => by rw [first.2 exact, second.2 exact]⟩

theorem covers_self {A : Type} (strict : Bool) (all : List A) : Covers strict all all :=
  ⟨.refl all, fun _ => rfl⟩

def Record.fire (record : Record) : UInt64 × Instant := (record.ruleId, record.firedAt)

def DispatchEntry.fire (entry : DispatchEntry) : UInt64 × Option Instant :=
  (entry.ruleId, entry.event.timestamp)

namespace Ledger

variable {strict : Bool} {before between after : Ledger}
  {fires first second : List (UInt64 × Instant)}

def RecordsTell (strict : Bool) (before : Ledger) (fires : List (UInt64 × Instant))
    (after : Ledger) : Prop :=
  ∃ rows : List Record, after.history = rows.reverse ++ before.history ∧
    after.lastRecordId = before.lastRecordId + .ofNat rows.length ∧
    rows.map Record.id = consecutive before.lastRecordId rows.length ∧
    Covers strict (rows.map Record.fire) fires

def DispatchesTell (strict : Bool) (before : Ledger) (fires : List (UInt64 × Instant))
    (after : Ledger) : Prop :=
  ∃ entries : List DispatchEntry, after.dispatches = entries.reverse ++ before.dispatches ∧
    Covers strict (entries.map DispatchEntry.fire) (fires.map fun fire => (fire.1, some fire.2))

structure Tells (strict : Bool) (before : Ledger) (fires : List (UInt64 × Instant))
    (after : Ledger) : Prop where
  records : RecordsTell strict before fires after
  dispatches : DispatchesTell strict before fires after

theorem recordsTell_of_same (covers : Covers strict [] fires)
    (history : after.history = before.history)
    (lastRecordId : after.lastRecordId = before.lastRecordId) :
    RecordsTell strict before fires after :=
  ⟨[], by simpa using history, by simpa using lastRecordId, rfl, covers⟩

theorem dispatchesTell_of_same (covers : Covers strict [] fires)
    (dispatches : after.dispatches = before.dispatches) :
    DispatchesTell strict before fires after := by
  refine ⟨[], by simpa using dispatches, List.nil_sublist _, fun exact => ?_⟩
  rw [← covers.2 exact]
  rfl

theorem tells_of_same (history : after.history = before.history)
    (lastRecordId : after.lastRecordId = before.lastRecordId)
    (dispatches : after.dispatches = before.dispatches) : before.Tells strict [] after where
  records := recordsTell_of_same (covers_self ..) history lastRecordId
  dispatches := dispatchesTell_of_same (covers_self ..) dispatches

theorem Tells.trans (start : before.Tells strict first between)
    (rest : between.Tells strict second after) : before.Tells strict (first ++ second) after where
  records := by
    obtain ⟨rows, history, lastId, ids, told⟩ := start.records
    obtain ⟨others, history', lastId', ids', told'⟩ := rest.records
    refine ⟨rows ++ others, ?_, ?_, ?_, ?_⟩
    · rw [history', history, List.reverse_append, List.append_assoc]
    · rw [lastId', lastId, List.length_append, UInt64.ofNat_add, UInt64.add_assoc]
    · rw [List.map_append, ids, ids', lastId, List.length_append, consecutive_add]
    · rw [List.map_append]
      exact told.append told'
  dispatches := by
    obtain ⟨entries, dispatches, told⟩ := start.dispatches
    obtain ⟨others, dispatches', told'⟩ := rest.dispatches
    refine ⟨entries ++ others, ?_, ?_⟩
    · rw [dispatches', dispatches, List.reverse_append, List.append_assoc]
    · rw [List.map_append, List.map_append]
      exact told.append told'

end Ledger

/-! ## The ledger of an installation -/

namespace Installation

open Activity

/-- Whether all fires of an engine are recorded and handed to a sink, and the rules of the store are
told apart. -/
structure Duly (station : Station) (conduct : StoreConduct) (rules : List Rule) : Prop where
  attended : station.sink.isSome = true
  entered : station.recorded = true
  inTime : conduct.saving.inTime station.engine.settings.saveHistoryTimeoutMillis.toNat = true
  distinct : (rules.map Rule.id).Nodup

instance (station : Station) (conduct : StoreConduct) (rules : List Rule) :
    Decidable (Duly station conduct rules) :=
  decidable_of_iff (station.sink.isSome = true ∧ station.recorded = true ∧
      conduct.saving.inTime station.engine.settings.saveHistoryTimeoutMillis.toNat = true ∧
      (rules.map Rule.id).Nodup)
    ⟨fun ⟨attended, entered, inTime, distinct⟩ => ⟨attended, entered, inTime, distinct⟩,
      fun ⟨attended, entered, inTime, distinct⟩ => ⟨attended, entered, inTime, distinct⟩⟩

def ledgerOf (strict : Bool) (installation : Installation) (station : Station) : Option Ledger :=
  if strict = true → Duly station installation.conduct installation.store.rules then
    some
      { engine := station.engine
        history := installation.store.history
        lastRecordId := installation.store.lastRecordId
        dispatches := installation.journal.dispatches }
  else none

/-- The ledger of an engine. The strict one can be seen only while all fires are duly told of. -/
def ledgerAt (strict : Bool) (index : Nat) (installation : Installation) : Option Ledger :=
  installation.stations[index]?.bind (ledgerOf strict installation)

variable {strict : Bool} {index : Nat} {installation : Installation} {station : Station}
  {ledger : Ledger} {event : Event} {now : Instant}

theorem ledgerOf_eq_some_iff :
    ledgerOf strict installation station = some ledger ↔
      (strict = true → Duly station installation.conduct installation.store.rules) ∧
        ledger.engine = station.engine ∧ ledger.history = installation.store.history ∧
        ledger.lastRecordId = installation.store.lastRecordId ∧
        ledger.dispatches = installation.journal.dispatches := by
  unfold ledgerOf
  obtain ⟨engine, history, lastRecordId, dispatches⟩ := ledger
  split
  · rename_i duly
    simp only [Option.some.injEq, Ledger.mk.injEq]
    tauto
  · rename_i notDuly
    simp [notDuly]

theorem ledgerAt_eq_some_iff :
    ledgerAt strict index installation = some ledger ↔
      ∃ station, installation.stations[index]? = some station ∧
        ledgerOf strict installation station = some ledger :=
  Option.bind_eq_some_iff

theorem ledgerAt_save {record : Record} (shows : ledgerAt strict index installation = some ledger) :
    ledgerAt strict index { installation with store := (installation.store.save record).2 } =
      some
        { ledger with
          history := { record with id := ledger.lastRecordId + 1 } :: ledger.history
          lastRecordId := ledger.lastRecordId + 1 } := by
  obtain ⟨station, present, shows⟩ := ledgerAt_eq_some_iff.mp shows
  obtain ⟨duly, engine, history, lastRecordId, dispatches⟩ := ledgerOf_eq_some_iff.mp shows
  refine ledgerAt_eq_some_iff.mpr ⟨station, present, ledgerOf_eq_some_iff.mpr ?_⟩
  refine ⟨duly, engine, ?_, ?_, dispatches⟩
  · rw [history, lastRecordId]
    rfl
  · rw [lastRecordId]
    rfl

theorem ensures_saveFire (record : Record) (ledger : Ledger) :
    (saveFire record ledger.engine.settings.saveHistoryTimeoutMillis.toNat).Ensures
      (ledgerAt strict index)
      (fun _ next => ∃ after : Ledger, next = some after ∧ after.engine = ledger.engine ∧
        after.dispatches = ledger.dispatches ∧ ledger.RecordsTell strict [record.fire] after)
      (some ledger) := by
  apply ensures_saveFire_of
  · intro installation shows
    refine ⟨_, ledgerAt_save shows, rfl, rfl, ?_⟩
    exact ⟨[{ record with id := ledger.lastRecordId + 1 }], rfl, rfl, rfl, covers_self ..⟩
  · intro source shows late
    refine ⟨ledger, rfl, rfl, rfl,
      Ledger.recordsTell_of_same ⟨List.nil_sublist _, fun exact => ?_⟩ rfl rfl⟩
    -- The deadline that the save is given is the one by which the strict ledger is seen at all.
    obtain ⟨station, present, shows⟩ := ledgerAt_eq_some_iff.mp shows
    obtain ⟨duly, engine, -⟩ := ledgerOf_eq_some_iff.mp shows
    rw [engine] at late
    exact absurd (duly exact).inTime late

theorem ledgerAt_dispatch {entry : DispatchEntry}
    (shows : ledgerAt strict index installation = some ledger) :
    ledgerAt strict index
        { installation with
          journal :=
            { installation.journal with
              dispatches := entry :: installation.journal.dispatches } } =
      some { ledger with dispatches := entry :: ledger.dispatches } := by
  obtain ⟨station, present, shows⟩ := ledgerAt_eq_some_iff.mp shows
  obtain ⟨duly, engine, history, lastRecordId, dispatches⟩ := ledgerOf_eq_some_iff.mp shows
  refine ledgerAt_eq_some_iff.mpr ⟨station, present, ledgerOf_eq_some_iff.mpr ?_⟩
  refine ⟨duly, engine, history, lastRecordId, ?_⟩
  rw [dispatches]

theorem ignoresNotices_ledgerAt : IgnoresNotices (ledgerAt strict index) := fun _ _ => rfl

theorem ensures_fire (rule : Rule) (timely : event.timestamp = some now) (ledger : Ledger) :
    (fire index rule event now).Ensures (ledgerAt strict index)
      (fun _ next => ∃ after : Ledger, next = some after ∧ after.engine = ledger.engine ∧
        ledger.Tells strict [(rule.id, now)] after) (some ledger) := by
  apply ensures_get.bind
  rintro source _ ⟨shows, rfl⟩
  obtain ⟨station, present, shows⟩ := ledgerAt_eq_some_iff.mp shows
  obtain ⟨duly, engine, -⟩ := ledgerOf_eq_some_iff.mp shows
  simp only [present, ← engine]
  apply (ensures_saveFire (Engine.recordOf rule event now) ledger).bind
  rintro _ _ ⟨between, rfl, same, undispatched, records⟩
  have unsent (lacking : ¬ Duly station source.conduct source.store.rules) :
      ledger.Tells strict [(rule.id, now)] between := by
    refine ⟨records,
      Ledger.dispatchesTell_of_same ⟨List.nil_sublist _, fun exact => ?_⟩ undispatched⟩
    exact absurd (duly exact) lacking
  cases hsink : station.sink with
  | none => exact ⟨between, rfl, same, unsent fun duly => by simpa [hsink] using duly.attended⟩
  | some sink =>
      apply (quiet_handOver ignoresNotices_ledgerAt ..).spares.ensures.bind
      rintro report _ rfl
      by_cases recorded : station.recorded
      · rw [if_pos recorded]
        intro installation shows
        refine ⟨_, ledgerAt_dispatch shows, same, records, ?_⟩
        refine ⟨[⟨rule.id, event, report⟩], ?_, ?_⟩
        · rw [undispatched]
          rfl
        · simpa [DispatchEntry.fire, timely] using covers_self ..
      · rw [if_neg recorded]
        exact ⟨between, rfl, same, unsent fun duly => recorded duly.entered⟩

def ledgerOutlook (strict : Bool) (index : Nat) : Outlook index Ledger where
  view := ledgerAt strict index
  engine := Ledger.engine
  tells := Ledger.Tells strict
  ignoresClock _ _ := rfl
  trans := Ledger.Tells.trans
  asks absent change seen keeps := by
    apply ensures_askEngine (ledgerOf strict) fun _ _ => rfl
    intro installation station shows
    obtain ⟨duly, engine, history, lastRecordId, dispatches⟩ := ledgerOf_eq_some_iff.mp shows
    rw [engine] at keeps ⊢
    refine ⟨{ seen with engine := (change station.engine).2 }, ?_, rfl, rfl,
      Ledger.tells_of_same rfl rfl rfl⟩
    refine ledgerOf_eq_some_iff.mpr ⟨fun exact => ?_, rfl, history, lastRecordId, dispatches⟩
    obtain ⟨attended, entered, inTime, distinct⟩ := duly exact
    rw [← keeps] at inTime
    exact ⟨attended, entered, inTime, distinct⟩
  fires rule _ _ ledger timely := ensures_fire rule timely ledger

@[simp] theorem engine_ledgerOutlook (ledger : Ledger) :
    (ledgerOutlook strict index).engine ledger = ledger.engine := rfl

end Installation

/-! ## What is answered -/

namespace Engine

structure Accounts (engine : Engine) (event : Event) (now : Instant) (handling : Handling)
    (after : Engine) : Prop where
  evaluated : handling.evaluated = engine.rules.length
  matched : handling.matched = handling.fired.length + handling.suppressed.length
  fired : handling.fired.Sublist (engine.rules.map Rule.id)
  suppressed : handling.suppressed.Sublist (engine.rules.map Rule.id)
  disjoint : handling.fired.Disjoint handling.suppressed
  named : ∀ rule ∈ engine.rules, rule.id ∈ handling.fired ∨ rule.id ∈ handling.suppressed ↔
    (engine.observe event now).2.ruleMatches rule event now = true
  recorded : handling.recorded = (event.reading? now).isSome
  tracker : after.tracker = engine.tracker.recordAll (event.reading? now).toList
  cooldowns : ∀ id, after.lastFired id =
    if id ∈ handling.fired then some now else engine.lastFired id
  rules : after.rules = engine.rules

variable {engine : Engine} {event : Event} {now : Instant}

theorem disjoint_withVerdict {rules : List Rule} (distinct : (rules.map Rule.id).Nodup) :
    (engine.withVerdict .fires event now rules).Disjoint
      (engine.withVerdict .suppressed event now rules) := by
  intro id fires suppressed
  obtain ⟨rule, mem, rfl⟩ := List.mem_map.mp (withVerdict_sublist.subset fires)
  rw [mem_withVerdict distinct mem] at fires suppressed
  rw [fires] at suppressed
  contradiction

theorem accounts_handle (distinct : (engine.rules.map Rule.id).Nodup) :
    engine.Accounts event now (engine.handle event now).1 (engine.handle event now).2 where
  evaluated := by rw [handle_of_distinct distinct]
  matched := by rw [handle_of_distinct distinct]
  fired := by
    rw [handle_of_distinct distinct]
    exact withVerdict_sublist
  suppressed := by
    rw [handle_of_distinct distinct]
    exact withVerdict_sublist
  disjoint := by
    rw [handle_of_distinct distinct]
    exact disjoint_withVerdict distinct
  named rule mem := by
    rw [handle_of_distinct distinct]
    simp only [mem_withVerdict distinct mem]
    have unmatched : (engine.observe event now).2.verdict rule event now = .unmatched ↔
        (engine.observe event now).2.ruleMatches rule event now = false := verdict_eq_unmatched_iff
    cases hverdict : (engine.observe event now).2.verdict rule event now <;> simp_all
  recorded := by rw [handle_of_distinct distinct]
  tracker := tracker_handle
  cooldowns := lastFired_handle distinct
  rules := rules_handle

end Engine

namespace Installation

open Activity

/-- How an engine serves a request among events and refreshes, told by its ledger. -/
inductive Accounted : Ledger → Request → Response → Ledger → Prop where
  | handle {before after : Ledger} {event : Event} {now : Instant} {handling : Handling}
      (timely : event.timestamp = some now)
      (accounts : before.engine.Accounts event now handling after.engine)
      (tells : before.Tells true (handling.fired.map (·, now)) after) :
      Accounted before (.handle event) (.handled handling) after
  | refresh {before after : Ledger} {rules : List Rule} (distinct : (rules.map Rule.id).Nodup)
      (left : after.engine = before.engine.refresh rules) (tells : before.Tells true [] after) :
      Accounted before .refresh (.refreshed (.ok rules.length)) after
  | refuse {before : Ledger} {fault : Fault} :
      Accounted before .refresh (.refreshed (.error fault)) before

/-- Whether only events that bring their time along are handled, and rules refreshed. -/
def Request.Plain : Request → Prop
  | .handle event => event.timestamp.isSome
  | .refresh => True
  | _ => False

theorem Request.Plain.timely {request : Request} (plain : request.Plain) : request.Timely := by
  cases request with
  | handle event => exact plain
  | refresh => trivial
  | testFire rule => trivial
  | cooldownRemaining id now => trivial

variable {index : Nat} {before after : Ledger} {request : Request} {response : Response}
  {requests : List Request} {responses : List Response}

theorem distinct_enabledRules {source : Installation}
    (shows : ledgerAt true index source = some before) :
    (source.store.enabledRules.map Rule.id).Nodup := by
  obtain ⟨station, -, shows⟩ := ledgerAt_eq_some_iff.mp shows
  obtain ⟨duly, -⟩ := ledgerOf_eq_some_iff.mp shows
  exact (List.filter_sublist.map Rule.id).nodup (duly rfl).distinct

theorem Serves.accounted (serves : Serves (ledgerOutlook true index) before request response after)
    (plain : request.Plain) (distinct : (before.engine.rules.map Rule.id).Nodup) :
    Accounted before request response after ∧ (after.engine.rules.map Rule.id).Nodup := by
  cases serves with
  | handle timely left tells =>
      rename_i event now
      simp only [engine_ledgerOutlook] at left
      have accounts : before.engine.Accounts event now (before.engine.handle event now).1
          (before.engine.handle event now).2 := Engine.accounts_handle distinct
      rw [← left] at accounts
      refine ⟨.handle timely accounts tells, ?_⟩
      rw [accounts.rules]
      exact distinct
  | refresh shows left tells =>
      have distinct := distinct_enabledRules shows
      refine ⟨.refresh distinct left tells, ?_⟩
      simp only [engine_ledgerOutlook] at left
      rw [left]
      exact distinct
  | refuse => exact ⟨.refuse, distinct⟩
  | testFire left tells => exact plain.elim
  | cooldownRemaining left tells => exact plain.elim

theorem accounted_of_chain (plain : ∀ request ∈ requests, request.Plain)
    (distinct : (before.engine.rules.map Rule.id).Nodup)
    (chain : Chain (Serves (ledgerOutlook true index)) before requests responses after) :
    Chain Accounted before requests responses after := by
  induction chain with
  | nil state => exact .nil state
  | cons first rest ih =>
      obtain ⟨accounted, distinct⟩ := first.accounted (plain _ List.mem_cons_self) distinct
      have plain := fun other mem => plain other (List.mem_cons_of_mem _ mem)
      exact .cons accounted (ih plain distinct)

def Response.fires : Request → Response → List (UInt64 × Instant)
  | .handle event, .handled handling =>
      event.timestamp.toList.flatMap fun now => handling.fired.map (·, now)
  | _, _ => []

def allFires (requests : List Request) (responses : List Response) : List (UInt64 × Instant) :=
  (requests.zip responses).flatMap fun pair => pair.2.fires pair.1

theorem Accounted.tells (accounted : Accounted before request response after) :
    before.Tells true (response.fires request) after := by
  cases accounted with
  | handle timely accounts tells => simpa [Response.fires, timely] using tells
  | refresh distinct left tells => exact tells
  | refuse => exact Ledger.tells_of_same rfl rfl rfl

theorem tells_of_chain (chain : Chain Accounted before requests responses after) :
    before.Tells true (allFires requests responses) after := by
  induction chain with
  | nil state => exact Ledger.tells_of_same rfl rfl rfl
  | cons first rest ih => exact first.tells.trans ih

/-- The records of a run and what was handed to the sink tell of the same fires, which are those
that the responses tell of; and each response accounts for what the engine made of its event. -/
theorem one_log_of_fires (plain : ∀ request ∈ requests, request.Plain)
    {first last : Installation} {start : Ledger} (present : ledgerAt true index first = some start)
    (distinct : (start.engine.rules.map Rule.id).Nodup)
    (ends : Ends (ledgerAt true index) (requests.mapM (serve index)) first responses last) :
    ∃ (final : Ledger) (rows : List Record) (entries : List DispatchEntry),
      ledgerAt true index last = some final ∧
        final.history = rows.reverse ++ start.history ∧
        final.dispatches = entries.reverse ++ start.dispatches ∧
        rows.map Record.fire = allFires requests responses ∧
        entries.map DispatchEntry.fire =
          (allFires requests responses).map (fun fire => (fire.1, some fire.2)) ∧
        rows.map Record.id = Ledger.consecutive start.lastRecordId rows.length ∧
        (start.lastRecordId.toNat + rows.length < UInt64.size →
          (rows.map Record.id).Pairwise (· < ·)) ∧
        Chain Accounted start requests responses final := by
  have timely : ∀ request ∈ requests, request.Timely :=
    fun request mem => (plain request mem).timely
  obtain ⟨final, shows, served⟩ := (ledgerOutlook true index).chain timely present ends
  have accounted := accounted_of_chain plain distinct served
  obtain ⟨⟨rows, history, -, ids, -, recorded⟩, ⟨entries, dispatches, -, handedOver⟩⟩ :=
    tells_of_chain accounted
  refine ⟨final, rows, entries, shows, history, dispatches, recorded rfl, handedOver rfl, ids,
    fun bound => ?_, accounted⟩
  rw [ids]
  exact Ledger.pairwise_consecutive bound

def stocked : Installation :=
  { withEngine [] { saving := .delayed 5 } (some (.dispatcher none 100)) with
    store := { entries := [(1, hot), (2, warm)], lastRuleId := 2, lastRecordId := 7 } }

def openedLedger : Ledger :=
  { engine := .start {}, history := [], lastRecordId := 7, dispatches := [] }

def dayAsked : List Request :=
  [.handle (load 99 0), .refresh, .handle (load 95 1), .handle (load 96 26), .handle (restart 27),
   .handle (load 97 28), .refresh]

def dayTold : List Response :=
  [.handled { recorded := true },
   .refreshed (.ok 2),
   .handled { recorded := true, evaluated := 2, matched := 1, fired := [2] },
   .handled { recorded := true, evaluated := 2, matched := 2, fired := [1, 2] },
   .handled { recorded := false, evaluated := 2 },
   .handled { recorded := true, evaluated := 2, matched := 2, fired := [2], suppressed := [1] },
   .refreshed (.ok 2)]

theorem one_log_of_fires_of_day :
    ∃ (last : Installation) (final : Ledger) (rows : List Record) (entries : List DispatchEntry),
      ledgerAt true 0 last = some final ∧
        final.history = rows.reverse ++ openedLedger.history ∧
        final.dispatches = entries.reverse ++ openedLedger.dispatches ∧
        rows.map Record.fire = allFires dayAsked dayTold ∧
        entries.map DispatchEntry.fire =
          (allFires dayAsked dayTold).map (fun fire => (fire.1, some fire.2)) ∧
        rows.map Record.id = Ledger.consecutive openedLedger.lastRecordId rows.length ∧
        (openedLedger.lastRecordId.toNat + rows.length < UInt64.size →
          (rows.map Record.id).Pairwise (· < ·)) ∧
        Chain Accounted openedLedger dayAsked dayTold final := by
  have ends : ∃ last, Ends (ledgerAt true 0) (dayAsked.mapM (serve 0)) stocked dayTold last :=
    exists_ends_of_run (fun _ _ => rfl) (by decide +kernel)
  obtain ⟨last, ends⟩ := ends
  have plain : ∀ request ∈ dayAsked, request.Plain := by
    simp [dayAsked, Request.Plain, load, restart]
  exact ⟨last, one_log_of_fires plain rfl .nil ends⟩

end Installation

end Alerting
