import Alerting.Installation.StartUp
import Alerting.Proofs.Engine.Cleanup
import Alerting.Proofs.Engine.Service
import Alerting.Proofs.Store.Import

/-!
# Starting up entirely or not at all

A start-up connects an engine in its last steps, and none of those can fail. So whichever call to
the store fails before them, the bus, the handle and the tasks are as they were, and all that can be
left behind are built-in rules. The store, the buses, the handles and what engines are told from
outside are on view; while a start-up waits for the store, others may change everything else, how
the store replies included.
-/

namespace Alerting

/-! ## What start-up builds on -/

structure Standing where
  rules : List Rule
  cleanup : Cleanup
  stopped : Bool

def Standing.start (rules : List Rule) (days : Int64) : Standing :=
  { rules
    cleanup := if 0 < days then .running else .unstarted
    stopped := false }

structure Footing where
  rules : List Rule
  lastRuleId : UInt64
  handlers : List (List Subscriber)
  stopped : List Bool
  handles : List (Option Nat)
  engines : List Standing

def Station.standing (station : Station) : Standing :=
  { rules := station.engine.rules
    cleanup := station.engine.cleanup
    stopped := station.engine.stopped }

def Installation.footing (installation : Installation) : Footing :=
  { rules := installation.store.rules
    lastRuleId := installation.store.lastRuleId
    handlers := installation.buses.map Bus.handlers
    stopped := installation.buses.map Bus.stopped
    handles := installation.handles
    engines := installation.stations.map Station.standing }

namespace Footing

variable (footing : Footing)

def create (rules : List Rule) : Footing :=
  { footing with
    rules := footing.rules ++ Store.numbered footing.lastRuleId rules
    lastRuleId := footing.lastRuleId + .ofNat rules.length }

def addBus : Footing :=
  { footing with
    handlers := footing.handlers ++ [[]]
    stopped := footing.stopped ++ [false] }

def connect (bus handle : Nat) (days : Int64) : Footing :=
  { footing with
    handlers := footing.handlers.modify bus (· ++ [.engine footing.engines.length])
    handles := footing.handles.set handle (some bus)
    engines := footing.engines ++ [.start (footing.rules.filter Rule.enabled) days] }

@[simp] theorem create_nil : footing.create [] = footing := by
  simp [create, Store.numbered]

theorem create_append (first second : List Rule) :
    footing.create (first ++ second) = (footing.create first).create second := by
  rw [create, create, create, Store.numbered_append, List.append_assoc, List.length_append,
    UInt64.ofNat_add, UInt64.add_assoc]

end Footing

def Settings.missingBuiltins (settings : Settings) (stored : List Rule) : List Rule :=
  if settings.seedBuiltins then missingRules (stored.map Rule.name) Builtin.rules else []

namespace Installation

open Activity

/-! ## Filling the store -/

inductive Creates {A : Type} (wanted : List Rule) (before : Footing) :
    Except Fault A → Footing → Prop where
  | all (result : A) : Creates wanted before (.ok result) (before.create wanted)
  | some (fault : Fault) {created : List Rule} (front : created <+: wanted) :
      Creates wanted before (.error fault) (before.create created)

variable {A : Type} {seen : Footing} {rule : Rule} {wanted : List Rule}

theorem Creates.none (fault : Fault) :
    Creates wanted seen (.error fault : Except Fault A) seen := by
  have nothing : Creates wanted seen (.error fault : Except Fault A) (seen.create []) :=
    .some fault List.nil_prefix
  rwa [Footing.create_nil] at nothing

theorem ensures_createRule (valid : rule.validate = .ok ()) :
    (createRule rule).run.Ensures footing (Creates [rule] seen) seen := by
  apply (ensures_awaitStore _).run_bind
  · rintro _ _ rfl
    apply ensures_step
    rintro installation rfl
    have added : { installation with store := installation.store.add [rule] }.footing =
        installation.footing.create [rule] := by
      simp only [footing, Footing.create, Store.rules_add]
      rfl
    dsimp only
    rw [Store.create_of_valid valid]
    exact added ▸ .all _
  · rintro fault _ rfl
    exact .none fault

theorem ensures_createMissing {rules : List Rule} (known : List String)
    (valid : ∀ rule ∈ rules, rule.validate = .ok ()) :
    (createMissing known rules).run.Ensures footing (Creates (missingRules known rules) seen)
      seen := by
  induction rules generalizing seen with
  | nil =>
      have nothing : Creates [] seen (.ok 0) (seen.create []) := .all 0
      rwa [Footing.create_nil] at nothing
  | cons rule rest ih =>
      rw [List.forall_mem_cons] at valid
      rw [createMissing]
      by_cases stored : known.contains rule.name
      · have passedOver : missingRules known (rule :: rest) = missingRules known rest :=
          List.filter_cons_of_neg (by rw [stored]; decide)
        rw [if_pos stored, passedOver]
        exact ih valid.2
      · have created : missingRules known (rule :: rest) = rule :: missingRules known rest :=
          List.filter_cons_of_pos (by simpa using stored)
        rw [if_neg stored, created]
        apply (ensures_createRule valid.1).run_bind
        · rintro _ _ ⟨⟩
          apply (ih valid.2).run_bind
          · rintro count _ ⟨⟩
            rw [← Footing.create_append]
            exact .all _
          · rintro fault _ (_ | ⟨_, front⟩)
            rw [← Footing.create_append]
            exact .some fault ((List.prefix_append_right_inj [rule]).mpr front)
        · rintro fault _ (_ | ⟨_, front⟩)
          exact .some fault (front.trans (List.prefix_append [rule] _))

theorem ensures_seedBuiltins :
    seedBuiltins.run.Ensures footing
      (Creates (missingRules (seen.rules.map Rule.name) Builtin.rules) seen) seen := by
  apply ensures_listRules.run_bind
  · rintro stored _ ⟨rfl, listed⟩
    obtain ⟨source, rfl, rfl⟩ := listed stored rfl
    exact ensures_createMissing _ Builtin.validate_rules
  · rintro fault _ ⟨rfl, -⟩
    exact .none fault

/-! ## Connecting the engine -/

theorem map_modify {C D : Type} (part : C → D) {change : C → C} (shown : D → D)
    (same : ∀ item, part (change item) = shown (part item)) (items : List C) (index : Nat) :
    (items.modify index change).map part = (items.map part).modify index shown := by
  apply List.ext_getElem?
  intro other
  rw [List.getElem?_map, List.getElem?_modify, List.getElem?_modify, List.getElem?_map]
  by_cases here : index = other
  · cases items[other]? <;> simp [here, same]
  · simp [here]

theorem footing_modifyBus (change : Bus Subscriber → Bus Subscriber)
    (subscribe : List Subscriber → List Subscriber) (stop : Bool → Bool)
    (handlers : ∀ bus, (change bus).handlers = subscribe bus.handlers)
    (stopped : ∀ bus, (change bus).stopped = stop bus.stopped)
    (installation : Installation) (bus : Nat) :
    footing { installation with buses := installation.buses.modify bus change } =
      { installation.footing with
        handlers := installation.footing.handlers.modify bus subscribe
        stopped := installation.footing.stopped.modify bus stop } := by
  rw [footing, map_modify _ _ handlers, map_modify _ _ stopped]
  rfl

theorem ensures_subscribe (bus : Nat) (handler : Subscriber) :
    (modifyBus bus fun bus => bus.subscribe handler).Ensures footing
      (fun _ next => next = { seen with
        handlers := seen.handlers.modify bus (· ++ [handler]) }) seen := by
  apply ensures_modify fun seen : Footing => { seen with
    handlers := seen.handlers.modify bus (· ++ [handler]) }
  intro installation
  rw [footing_modifyBus (·.subscribe handler) (· ++ [handler]) id (fun _ => rfl) fun _ => rfl,
    List.modify_id]

theorem ensures_stopBus (bus : Nat) :
    (modifyBus bus Bus.stop).Ensures footing
      (fun _ next => next = { seen with
        stopped := seen.stopped.modify bus fun _ => true }) seen := by
  apply ensures_modify fun seen : Footing => { seen with
    stopped := seen.stopped.modify bus fun _ => true }
  intro installation
  rw [footing_modifyBus Bus.stop id (fun _ => true) (fun _ => rfl) fun _ => rfl, List.modify_id]

theorem spares_awaitBus (bus : Nat) : (awaitBus bus).Spares footing := by
  have awaited (installation : Installation) :
      footing { installation with
        buses := installation.buses.modify bus fun bus => { bus with awaited := true } } =
        installation.footing := by
    rw [footing_modifyBus (fun bus => { bus with awaited := true }) id id (fun _ => rfl) fun _ => rfl,
      List.modify_id, List.modify_id]
  refine spares_get.bind fun installation => ?_
  split
  · exact (quiet_modify awaited).spares.bind fun _ => trivial
  · exact spares_pure _

theorem ensures_shutDownBus (bus : Nat) :
    (shutDownBus bus).Ensures footing
      (fun _ next => next = { seen with
        stopped := seen.stopped.modify bus fun _ => true }) seen := by
  apply (ensures_stopBus bus).bind
  rintro _ _ rfl
  exact (spares_awaitBus bus).ensures

theorem ensures_addEngine (station : Station) :
    (addEngine station).Ensures footing
      (fun index next => index = seen.engines.length ∧
        next = { seen with engines := seen.engines ++ [station.standing] }) seen := by
  apply ensures_step
  rintro installation rfl
  simp [footing]

theorem ensures_bindHandle (handle bus : Nat) :
    (bindHandle handle bus).Ensures footing
      (fun _ next => next = { seen with handles := seen.handles.set handle (some bus) }) seen :=
  ensures_modify
    (fun seen : Footing => { seen with handles := seen.handles.set handle (some bus) }) fun _ => rfl

section

variable {settings : Settings} {notifier : Option Notifier} {bus handle : Nat} {rules : List Rule}

theorem ensures_startCleanup {engines : List Standing} (days : Int64)
    (latest : seen.engines = engines ++ [{ rules, cleanup := .unstarted, stopped := false }]) :
    (modifyEngine engines.length fun engine => engine.startCleanup days).Ensures footing
      (fun _ next => next = { seen with engines := engines ++ [.start rules days] }) seen := by
  apply ensures_step
  rintro installation rfl
  have latest : installation.stations.map Station.standing = _ := latest
  have shown : (installation.stations.map Station.standing)[engines.length]? =
      some { rules, cleanup := .unstarted, stopped := false } := by
    rw [latest, List.getElem?_concat_length]
  rw [List.getElem?_map] at shown
  obtain ⟨station, present, stands⟩ := Option.map_eq_some_iff.mp shown
  obtain ⟨rfl, unstarted, unstopped⟩ := Standing.mk.inj stands
  have tended : Station.standing { station with engine := station.engine.startCleanup days } =
      .start station.engine.rules days := by
    simp [Station.standing, Standing.start, Engine.startCleanup, unstarted, unstopped]
  rw [present]
  change footing { installation with stations := installation.stations.set _ _ } = _
  rw [footing, List.map_set, tended, latest]
  simp [footing]

theorem ensures_connect (enabled : rules = seen.rules.filter Rule.enabled) :
    (startUp.connect settings notifier bus handle rules).Ensures footing
      (fun index next => index = seen.engines.length ∧
        next = seen.connect bus handle settings.historyRetentionDays) seen := by
  apply (ensures_addEngine _).bind
  rintro _ _ ⟨rfl, rfl⟩
  apply (ensures_subscribe bus (.engine seen.engines.length)).bind
  rintro _ _ rfl
  apply (ensures_bindHandle handle bus).bind
  rintro _ _ rfl
  apply (ensures_startCleanup settings.historyRetentionDays rfl).bind
  rintro _ _ rfl
  subst enabled
  exact ⟨rfl, rfl⟩

inductive Starts (settings : Settings) (bus handle : Nat) (before : Footing) :
    Except Fault Nat → Footing → Prop where
  | succeed : Starts settings bus handle before (.ok before.engines.length)
      ((before.create (settings.missingBuiltins before.rules)).connect bus handle
        settings.historyRetentionDays)
  | fail (fault : Fault) {created : List Rule}
      (front : created <+: settings.missingBuiltins before.rules) :
      Starts settings bus handle before (.error fault) (before.create created)

theorem startUp_of_invalid {fault : Fault} (invalid : settings.validate = .error fault) :
    (startUp settings notifier bus handle).run = .done (.error fault) := by
  rw [startUp, invalid]
  rfl

theorem ensures_loadRules (settings : Settings) (notifier : Option Notifier) (bus handle : Nat)
    (seen : Footing) :
    (listEnabledRules >>= fun rules =>
        (startUp.connect settings notifier bus handle rules : Work Nat) : Attempt Nat).run.Ensures
      footing (Starts settings bus handle seen)
      (seen.create (settings.missingBuiltins seen.rules)) := by
  apply ensures_listEnabledRules.run_bind
  · rintro rules _ ⟨rfl, listed⟩
    obtain ⟨source, shows, rfl⟩ := listed rules rfl
    have enabled : source.store.enabledRules =
        (seen.create (settings.missingBuiltins seen.rules)).rules.filter Rule.enabled := by
      rw [← shows]
      rfl
    apply (ensures_connect enabled).lift
    rintro _ _ ⟨rfl, rfl⟩
    exact .succeed
  · rintro fault _ ⟨rfl, -⟩
    exact .fail fault (List.prefix_refl _)

theorem ensures_startUp :
    (startUp settings notifier bus handle).run.Ensures footing (Starts settings bus handle seen)
      seen := by
  cases checked : settings.validate with
  | error fault =>
      rw [startUp_of_invalid checked]
      have nothing : Starts settings bus handle seen (.error fault) (seen.create []) :=
        .fail fault List.nil_prefix
      rwa [Footing.create_nil] at nothing
  | ok _ =>
      have load := ensures_loadRules settings notifier bus handle seen
      rw [startUp, checked]
      by_cases seeds : settings.seedBuiltins
      · have missing : settings.missingBuiltins seen.rules =
            missingRules (seen.rules.map Rule.name) Builtin.rules := if_pos seeds
        rw [if_pos seeds]
        change (seedBuiltins >>= fun _ => _).run.Ensures _ _ _
        apply ensures_seedBuiltins.run_bind
        · rintro _ _ ⟨⟩
          rwa [missing] at load
        · rintro fault _ (_ | ⟨_, front⟩)
          exact .fail fault (missing ▸ front)
      · have missing : settings.missingBuiltins seen.rules = [] := if_neg seeds
        rw [missing, Footing.create_nil] at load
        rw [if_neg seeds]
        exact load

/-! ## A bus of its own -/

theorem ensures_addBus (capacity : Nat) :
    (addBus capacity).Ensures footing
      (fun bus next => bus = seen.handlers.length ∧ next = seen.addBus) seen := by
  have puts : (Activity.step fun installation : Installation =>
      (installation.buses.length,
       { installation with buses := installation.buses ++ [Bus.start capacity] })).Ensures footing
      (fun bus next => bus = seen.handlers.length ∧ next = seen.addBus) seen := by
    apply ensures_step
    rintro installation rfl
    simp [footing, Footing.addBus, Bus.start]
  unfold addBus
  -- Nothing has to be shown of a wait that is never over, and what stands behind it is the same.
  split
  · exact puts
  · exact puts

inductive StartsAssembly (settings : Settings) (handle : Nat) (before : Footing) :
    Except Fault Assembly → Footing → Prop where
  | succeed {engine : Nat} {after : Footing}
      (starts : Starts settings before.handlers.length handle before.addBus (.ok engine) after) :
      StartsAssembly settings handle before
        (.ok { bus := before.handlers.length, engine, handle }) after
  | fail {fault : Fault} {after : Footing}
      (starts : Starts settings before.handlers.length handle before.addBus (.error fault) after) :
      StartsAssembly settings handle before (.error fault)
        { after with stopped := after.stopped.modify before.handlers.length fun _ => true }

theorem ensures_startAssembly :
    (startAssembly settings notifier handle).run.Ensures footing
      (StartsAssembly settings handle seen) seen := by
  have prepares : ∀ update : Installation → Installation,
      (∀ installation, (update installation).footing = installation.footing) → ∀ {seen},
        (Activity.modify update).Ensures footing (fun _ next => next = seen) seen :=
    fun _ same => (quiet_modify same).spares.ensures
  apply (ensures_addBus _).bind
  rintro _ _ ⟨rfl, rfl⟩
  apply (prepares _ fun _ => rfl).bind
  rintro _ _ rfl
  apply ensures_startUp.bind
  rintro (fault | engine) _ starts
  · apply (ensures_shutDownBus _).bind
    rintro _ _ rfl
    apply (prepares _ fun _ => rfl).bind
    rintro _ _ rfl
    exact .fail starts
  · apply (prepares _ fun _ => rfl).bind
    rintro _ _ rfl
    exact .succeed starts

end

/-! ## Entirely or not at all -/

def handlersOn (installation : Installation) (bus : Nat) : Option (List Subscriber) :=
  installation.buses[bus]?.map Bus.handlers

/-- Whether a start that failed has left no trace but built-in rules in the store. -/
structure LeftAlone (settings : Settings) (first last : Installation) : Prop where
  handlers : ∀ bus < first.buses.length, last.handlersOn bus = first.handlersOn bus
  handles : last.handles = first.handles
  tasks : ∀ engine, .cleanup engine ∈ tasks last ↔ .cleanup engine ∈ tasks first
  rules : ∃ created, created <+: settings.missingBuiltins first.store.rules ∧
    last.store.rules = first.store.rules ++ Store.numbered first.store.lastRuleId created

/-- Whether an engine has been started and connected, and nothing else has been touched. -/
structure Connected (settings : Settings) (bus handle index : Nat) (first last : Installation) :
    Prop where
  subscribed : ∃ handlers, first.handlersOn bus = some handlers ∧
    last.handlersOn bus = some (handlers ++ [.engine index])
  otherHandlers : ∀ other ≠ bus, last.handlersOn other = first.handlersOn other
  bound : last.handles[handle]? = some (some bus)
  otherHandles : ∀ other ≠ handle, last.handles[other]? = first.handles[other]?
  rules : last.store.rules = first.store.rules ++
    Store.numbered first.store.lastRuleId (settings.missingBuiltins first.store.rules)
  seeded : settings.seedBuiltins = true →
    ∀ rule ∈ Builtin.rules, rule.name ∈ last.store.rules.map Rule.name
  unseeded : settings.seedBuiltins = false → last.store.rules = first.store.rules
  fresh : index = first.stations.length
  engine : ∃ station, last.stations[index]? = some station ∧
    station.engine.rules = last.store.enabledRules ∧
    (station.engine.cleanup = .running ↔ 0 < settings.historyRetentionDays)
  task : .cleanup index ∈ tasks last ↔ 0 < settings.historyRetentionDays
  otherTasks : ∀ other ≠ index, .cleanup other ∈ tasks last ↔ .cleanup other ∈ tasks first

section

variable {settings : Settings} {bus handle index : Nat} {first last : Installation}

theorem handlersOn_eq (installation : Installation) (bus : Nat) :
    installation.handlersOn bus = installation.footing.handlers[bus]? :=
  List.getElem?_map.symm

theorem cleanup_mem_tasks_iff (installation : Installation) (index : Nat) :
    .cleanup index ∈ tasks installation ↔
      ∃ standing, installation.footing.engines[index]? = some standing ∧
        standing.cleanup ≠ .unstarted := by
  cases present : installation.stations[index]? with
  | none =>
      have outside := List.getElem?_eq_none_iff.mp present
      simp [tasks, footing, outside]
  | some station =>
      rw [cleanup_mem_tasks present]
      simp [footing, present, Station.standing]

theorem tasks_congr {other : Nat}
    (same : last.footing.engines[other]? = first.footing.engines[other]?) :
    .cleanup other ∈ tasks last ↔ .cleanup other ∈ tasks first := by
  rw [cleanup_mem_tasks_iff, cleanup_mem_tasks_iff, same]

theorem leftAlone_of_footing {created : List Rule}
    (front : created <+: settings.missingBuiltins first.store.rules)
    (handlers : ∀ bus < first.buses.length,
      last.footing.handlers[bus]? = first.footing.handlers[bus]?)
    (rest : ∃ handlers stopped,
      last.footing = { first.footing.create created with handlers, stopped }) :
    LeftAlone settings first last := by
  obtain ⟨_, _, rest⟩ := rest
  exact
    { handlers bus inside := by rw [handlersOn_eq, handlersOn_eq, handlers bus inside]
      handles := congrArg Footing.handles rest
      tasks engine := tasks_congr (by rw [rest]; rfl)
      rules := ⟨created, front, congrArg Footing.rules rest⟩ }

theorem exists_own {stopped : List Bool} (unused : stopped.length = first.buses.length)
    (handlers : last.footing.handlers = first.footing.handlers ++ [[]])
    (stops : last.footing.stopped =
      (stopped ++ [false]).modify first.footing.handlers.length fun _ => true) :
    ∃ own, last.buses[first.buses.length]? = some own ∧ own.stopped = true ∧ own.handlers = [] := by
  have count : first.footing.handlers.length = first.buses.length := List.length_map ..
  have unheard : last.footing.handlers[first.buses.length]? = some [] := by
    rw [handlers, ← count, List.getElem?_concat_length]
  obtain ⟨own, present, nobody⟩ := Option.map_eq_some_iff.mp (List.getElem?_map.symm.trans unheard)
  refine ⟨own, present, ?_, nobody⟩
  have stands : last.footing.stopped[first.buses.length]? = some own.stopped := by
    rw [footing, List.getElem?_map, present]
    rfl
  rw [stops, count, List.getElem?_modify_eq, ← unused, List.getElem?_concat_length] at stands
  exact (Option.some.inj stands).symm

theorem names_missingBuiltins (seeds : settings.seedBuiltins = true) {stored : List Rule}
    (mem : rule ∈ Builtin.rules) :
    rule.name ∈ stored.map Rule.name ++ (settings.missingBuiltins stored).map Rule.name := by
  rw [Settings.missingBuiltins, if_pos seeds, List.mem_append]
  by_cases old : rule.name ∈ stored.map Rule.name
  · exact .inl old
  · exact .inr (List.mem_map_of_mem (mem_missingRules_iff.mpr ⟨mem, old⟩))

theorem getElem?_concat_ne {C : Type} {items : List C} {item : C} {other : Nat}
    (ne : other ≠ items.length) : (items ++ [item])[other]? = items[other]? := by
  rcases Nat.lt_or_gt_of_ne ne with inside | outside
  · exact List.getElem?_append_left inside
  · rw [List.getElem?_eq_none (by simp; omega), List.getElem?_eq_none (by omega)]

theorem connected_of_footing (onBus : bus < first.buses.length)
    (onHandle : handle < first.handles.length)
    (shows : last.footing =
      (first.footing.create (settings.missingBuiltins first.store.rules)).connect bus handle
        settings.historyRetentionDays) :
    Connected settings bus handle first.footing.engines.length first last := by
  have handlers : last.footing.handlers =
      first.footing.handlers.modify bus (· ++ [.engine first.footing.engines.length]) :=
    congrArg Footing.handlers shows
  have handles : last.handles = first.handles.set handle (some bus) :=
    congrArg Footing.handles shows
  have rules : last.store.rules = first.store.rules ++
      Store.numbered first.store.lastRuleId (settings.missingBuiltins first.store.rules) :=
    congrArg Footing.rules shows
  have engines : last.footing.engines = first.footing.engines ++
      [.start last.store.enabledRules settings.historyRetentionDays] := by
    rw [Store.enabledRules, rules]
    exact congrArg Footing.engines shows
  have latest : last.footing.engines[first.footing.engines.length]? =
      some (.start last.store.enabledRules settings.historyRetentionDays) := by
    rw [engines, List.getElem?_concat_length]
  exact
    { subscribed := by
        refine ⟨first.buses[bus].handlers, ?_, ?_⟩
        · rw [handlersOn, List.getElem?_eq_getElem onBus]
          rfl
        · rw [handlersOn_eq, handlers, List.getElem?_modify_eq, footing, List.getElem?_map,
            List.getElem?_eq_getElem onBus]
          rfl
      otherHandlers other ne := by
        rw [handlersOn_eq, handlersOn_eq, handlers, List.getElem?_modify_ne _ _ ne.symm]
      bound := by rw [handles, List.getElem?_set_self onHandle]
      otherHandles other ne := by rw [handles, List.getElem?_set_ne ne.symm]
      rules
      seeded seeds rule mem := by
        rw [rules, List.map_append, Store.names_numbered]
        exact names_missingBuiltins seeds mem
      unseeded unseeded := by
        rw [rules, Settings.missingBuiltins, unseeded]
        exact List.append_nil _
      fresh := List.length_map ..
      engine := by
        obtain ⟨station, present, stands⟩ :=
          Option.map_eq_some_iff.mp (List.getElem?_map.symm.trans latest)
        obtain ⟨snapshot, cleanup, -⟩ := Standing.mk.inj stands
        refine ⟨station, present, snapshot, ?_⟩
        rw [cleanup]
        by_cases kept : 0 < settings.historyRetentionDays <;> simp [kept]
      task := by
        rw [cleanup_mem_tasks_iff, latest]
        by_cases kept : 0 < settings.historyRetentionDays <;> simp [Standing.start, kept]
      otherTasks other ne := tasks_congr (by rw [engines, getElem?_concat_ne ne]) }

/-- Start-up with settings that are not valid does nothing. Whatever else it fails at, the bus has
the same handlers, the handles are bound as before, there is no new task, and the store has at most
some built-in rules in addition. When it succeeds, the engine is the last handler of the bus, the
handle is bound to it, the built-in rules are stored if they are to be, the snapshot consists of the
enabled rules, and old history is removed if it is not kept forever. An assembly whose start fails
leaves behind a stopped bus that nobody is subscribed to. -/
theorem startUp_all_or_nothing (settings : Settings) (notifier : Option Notifier)
    (bus handle : Nat) :
    (∀ fault, settings.validate = .error fault →
      (startUp settings notifier bus handle).run = .done (.error fault)) ∧
    (∀ first last fault,
      Ends footing (startUp settings notifier bus handle).run first (.error fault) last →
        LeftAlone settings first last) ∧
    (∀ first last index, bus < first.buses.length → handle < first.handles.length →
      Ends footing (startUp settings notifier bus handle).run first (.ok index) last →
        Connected settings bus handle index first last) ∧
    ∀ first last fault,
      Ends footing (startAssembly settings notifier handle).run first (.error fault) last →
        LeftAlone settings first last ∧
        ∃ own, last.buses[first.buses.length]? = some own ∧ own.stopped = true ∧
          own.handlers = [] := by
  refine ⟨fun fault => startUp_of_invalid, ?_, ?_, ?_⟩
  · intro first last fault ends
    have starts := ends.fits ensures_startUp
    generalize shows : last.footing = after at starts
    cases starts with
    | fail _ front =>
        exact leftAlone_of_footing front (fun _ _ => by rw [shows]; rfl) ⟨_, _, shows⟩
  · intro first last index onBus onHandle ends
    have starts := ends.fits ensures_startUp
    generalize shows : last.footing = after at starts
    cases starts with
    | succeed => exact connected_of_footing onBus onHandle shows
  · intro first last fault ends
    have starts := ends.fits ensures_startAssembly
    generalize shows : last.footing = after at starts
    cases starts with
    | fail starts =>
        cases starts with
        | fail _ front =>
            have handlers : last.footing.handlers = first.footing.handlers ++ [[]] :=
              congrArg Footing.handlers shows
            refine ⟨leftAlone_of_footing front (fun bus inside => ?_) ⟨_, _, shows⟩, ?_⟩
            · rw [handlers, List.getElem?_append_left (by simpa [footing] using inside)]
            · exact exists_own (List.length_map ..) handlers (congrArg Footing.stopped shows)

end

def outpost : Installation :=
  { Installation.start (.clamp 0) with
    store :=
      { entries :=
          [(7, { id := 7, name := "frost", objectType := "sensor", trigger := .event "cold" })]
        lastRuleId := 7 }
    buses := [Bus.start 1, (Bus.start 8).subscribe (.named "log" .record)]
    handles := [some 0, none] }

def readOnly : Installation := { outpost with conduct := { creation := .refused "read-only" } }

def offline : Installation := { outpost with conduct := { listing := .refused "offline" } }

theorem startUp_all_or_nothing_at_outpost :
    (startUp { busCapacity := 0 } none 1 1).run =
      .done (.error (.invalidSettings "bus_capacity must be greater than 0")) ∧
    (∃ last, Ends footing (startUp {} none 1 1).run readOnly (.error (.store "read-only")) last ∧
      LeftAlone {} readOnly last) ∧
    (∃ last, Ends footing (startUp {} none 1 1).run outpost (.ok 0) last ∧
      Connected {} 1 1 0 outpost last) ∧
    ∃ last, Ends footing (startAssembly {} none 1).run offline (.error (.store "offline")) last ∧
      LeftAlone {} offline last ∧
      ∃ own, last.buses[2]? = some own ∧ own.stopped = true ∧ own.handlers = [] := by
  have invalid : Settings.validate { busCapacity := 0 } =
      .error (.invalidSettings "bus_capacity must be greater than 0") := by decide +kernel
  have refused : ((startUp {} none 1 1).run.rush readOnly).1 = .error (.store "read-only") := by
    decide +kernel
  have granted : ((startUp {} none 1 1).run.rush outpost).1 = .ok 0 := by decide +kernel
  have unread : ((startAssembly {} none 1).run.rush offline).1 = .error (.store "offline") := rfl
  obtain ⟨left, fails⟩ := exists_ends_of_rush refused
  obtain ⟨joined, succeeds⟩ := exists_ends_of_rush granted
  obtain ⟨stopped, stops⟩ := exists_ends_of_rush unread
  exact ⟨(startUp_all_or_nothing _ none 1 1).1 _ invalid,
    ⟨left, fails, (startUp_all_or_nothing {} none 1 1).2.1 _ _ _ fails⟩,
    ⟨joined, succeeds,
      (startUp_all_or_nothing {} none 1 1).2.2.1 _ _ _ (by decide) (by decide) succeeds⟩,
    ⟨stopped, stops, (startUp_all_or_nothing {} none 1 1).2.2.2 _ _ _ stops⟩⟩

end Installation

end Alerting
