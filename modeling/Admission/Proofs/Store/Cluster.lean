import Mathlib.Algebra.BigOperators.Fin
import Mathlib.Data.Fintype.Option
import Admission.Proofs.Store.Standing
import Admission.Proofs.Store.Tiered

/-! Nodes that share a primary store and have a fallback store each. Main statement: at one reading every
store grants the limit for itself, so that the nodes admit more than the limit and the advertised bound
exactly if their stores together have less than the limit left, and in some run they have nothing left. -/
namespace Admission

def MetricEvent.isFallback : MetricEvent → Bool
  | fallback .. => true
  | _ => false

/-- Nodes with a tiered store each, all over one primary store. -/
structure Cluster (n : Nat) where
  primary : MemoryStore
  fallback : Fin n → MemoryStore
  breaker : Fin n → Breaker
  /-- The clock of the breakers. -/
  clock : Timestamp

namespace Cluster

/-- Between two requests anything may happen to the breaker of a node. Requests that overlap come in the
order in which the stores charge them. -/
inductive Action (n : Nat)
  /-- A node is asked for a permit, while the primary store works or fails with an error. -/
  | acquire (node : Fin n) (outage? : Option StoreError)
  | change (node : Fin n) (change : Breaker → Breaker)

/-- What a node said to a request. -/
structure Entry (n : Nat) where
  node : Fin n
  result : Except StoreError Bool
  events : List MetricEvent

variable {n : Nat}

def Entry.admitted (entry : Entry n) : Bool :=
  match entry.result with
  | .ok allowed => allowed
  | .error _ => false

/-- The store that answered: the shared one, or that of the node if the node reports a fallback. -/
def Entry.tier (entry : Entry n) : Option (Fin n) :=
  if entry.events.any MetricEvent.isFallback then some entry.node else none

def Entry.grantedBy (tier : Option (Fin n)) (entry : Entry n) : Bool :=
  entry.tier = tier && entry.admitted

/-- The stores of a cluster: the shared one, and one for each node. -/
def tier (cluster : Cluster n) : Option (Fin n) → MemoryStore
  | none => cluster.primary
  | some node => cluster.fallback node

def storeOf (cluster : Cluster n) (node : Fin n) (outage? : Option StoreError) :
    TieredStore (FaultyStore MemoryStore) MemoryStore :=
  { primary := { inner := cluster.primary, faults := (outage?.map (StoreOperation.acquire, ·)).toList }
    fallback := cluster.fallback node, breaker := cluster.breaker node, clock := cluster.clock }

def put (cluster : Cluster n) (node : Fin n) (store : TieredStore (FaultyStore MemoryStore) MemoryStore) :
    Cluster n :=
  { cluster with
    primary := store.primary.inner
    fallback := Function.update cluster.fallback node store.fallback
    breaker := Function.update cluster.breaker node store.breaker }

def step (key : String) (limiter : Limiter) (cluster : Cluster n) : Action n → Option (Entry n) × Cluster n
  | .acquire node outage? =>
    let reply := Store.acquire (cluster.storeOf node outage?) key limiter 1 cluster.clock
    (some ⟨node, reply.result, reply.events⟩, cluster.put node reply.store)
  | .change node change =>
    (none, { cluster with breaker := Function.update cluster.breaker node (change (cluster.breaker node)) })

def run (key : String) (limiter : Limiter) (cluster : Cluster n) : List (Action n) → List (Entry n)
  | [] => []
  | action :: rest =>
    let step := cluster.step key limiter action
    step.1.toList ++ run key limiter step.2 rest

/-- How many requests a store answered. -/
def answered (log : List (Entry n)) (tier : Option (Fin n)) : Nat :=
  (log.map Entry.tier).count tier

/-- How many requests were admitted. -/
def admitted (log : List (Entry n)) : Nat :=
  log.countP Entry.admitted

/-- New nodes over a new primary store, all of whose clocks show one early reading. -/
structure Fresh (key : String) (limiter : Limiter) (cluster : Cluster n) : Prop where
  built : ∃ draft : Limiter.Draft, draft.build = .ok limiter
  window : .ofMillis 1 ≤ limiter.window
  capacity : limiter.capacity.toNat < 2 ^ 53
  early : cluster.clock < Timestamp.last
  clocks : ∀ tier, (cluster.tier tier).clock = cluster.clock
  fresh : ∀ tier, (cluster.tier tier).meter? key = none
  closed : ∀ node, (cluster.breaker node).circuit = .closed

section

variable {key : String} {limiter : Limiter} {cluster next : Cluster n} {node : Fin n} {entry : Entry n}

/-- The store that answered a request has charged it, and the others are as they were. -/
structure Charged (key : String) (limiter : Limiter) (cluster : Cluster n) (entry : Entry n)
    (next : Cluster n) : Prop where
  result : entry.result = .ok ((cluster.tier entry.tier).charge key limiter 1 cluster.clock).allowed
  store : next.tier entry.tier = ((cluster.tier entry.tier).charge key limiter 1 cluster.clock).state
  others : ∀ tier, tier ≠ entry.tier → next.tier tier = cluster.tier tier
  clock : next.clock = cluster.clock

private theorem charged_primary {store : TieredStore (FaultyStore MemoryStore) MemoryStore}
    (shared : entry.tier = none)
    (result : entry.result = .ok (cluster.primary.charge key limiter 1 cluster.clock).allowed)
    (primary : store.primary.inner = (cluster.primary.charge key limiter 1 cluster.clock).state)
    (fallback : store.fallback = cluster.fallback node) :
    Charged key limiter cluster entry (cluster.put node store) := by
  constructor
  case result =>
    rw [shared]
    exact result
  case store =>
    rw [shared]
    exact primary
  case others =>
    intro tier other
    rw [shared] at other
    cases tier with
    | none => exact absurd rfl other
    | some peer =>
      show Function.update cluster.fallback node store.fallback peer = cluster.fallback peer
      rw [fallback, Function.update_eq_self]
  case clock => rfl

private theorem charged_fallback {store : TieredStore (FaultyStore MemoryStore) MemoryStore}
    (own : entry.tier = some node)
    (result : entry.result = .ok ((cluster.fallback node).charge key limiter 1 cluster.clock).allowed)
    (fallback : store.fallback = ((cluster.fallback node).charge key limiter 1 cluster.clock).state)
    (primary : store.primary.inner = cluster.primary) :
    Charged key limiter cluster entry (cluster.put node store) := by
  constructor
  case result =>
    rw [own]
    exact result
  case store =>
    rw [own]
    exact (Function.update_self ..).trans fallback
  case others =>
    intro tier other
    rw [own] at other
    cases tier with
    | none => exact primary
    | some peer => exact Function.update_of_ne (fun same => other (congrArg some same)) ..
  case clock => rfl

private theorem any_isFallback_transitionEvents {π φ : Type} (store : TieredStore π φ)
    (reported : Option Transition) :
    (store.transitionEvents reported).any MetricEvent.isFallback = false := by
  cases reported with
  | none => rfl
  | some transition => rfl

/-- A request is charged to the store that answers it, which is that of the node if the primary store is out. -/
theorem charged_of_answered {outage? : Option StoreError}
    {reply : Reply Bool (TieredStore (FaultyStore MemoryStore) MemoryStore)}
    (answered : TieredStore.Answered (cluster.storeOf node outage?) .acquire
      (Store.acquire · key limiter 1 cluster.clock) (Store.acquire · key limiter 1 cluster.clock) reply) :
    let entry : Entry n := ⟨node, reply.result, reply.events⟩
    Charged key limiter cluster entry (cluster.put node reply.store) ∧ (outage? ≠ none → entry.tier = some node) := by
  have quiet : (Store.acquire (cluster.storeOf node outage?).primary key limiter 1 cluster.clock).events = [] := by
    cases outage? with
    | none => rfl
    | some fault => rfl
  intro entry
  cases answered with
  | primary value said before after breaker =>
    have shared : entry.tier = none := by
      simp [entry, Entry.tier, any_isFallback_transitionEvents, quiet]
    cases outage? with
    | some fault => cases said
    | none => exact ⟨charged_primary shared said.symm rfl rfl, fun out => absurd rfl out⟩
  | refused refusal before breaker =>
    have own : entry.tier = some node := by
      simp [entry, Entry.tier, MetricEvent.isFallback]
    exact ⟨charged_fallback own rfl rfl rfl, fun _ => own⟩
  | failed error said before after breaker =>
    have own : entry.tier = some node := by
      simp [entry, Entry.tier, MetricEvent.isFallback]
    cases outage? with
    | some fault => exact ⟨charged_fallback own rfl rfl rfl, fun _ => own⟩
    | none => cases said

/-- A run as its stores see it: one charge for each request, and nothing else. -/
inductive Charges (key : String) (limiter : Limiter) : Cluster n → List (Entry n) → Prop
  | done (cluster : Cluster n) : Charges key limiter cluster []
  | change {cluster next : Cluster n} {log : List (Entry n)} (tiers : next.tier = cluster.tier)
      (clock : next.clock = cluster.clock) (rest : Charges key limiter next log) : Charges key limiter cluster log
  | charge {cluster next : Cluster n} {entry : Entry n} {log : List (Entry n)}
      (charged : Charged key limiter cluster entry next) (rest : Charges key limiter next log) :
      Charges key limiter cluster (entry :: log)

private theorem tier_change (cluster : Cluster n) (breaker : Fin n → Breaker) :
    ({ cluster with breaker } : Cluster n).tier = cluster.tier := by
  funext tier
  cases tier with
  | none => rfl
  | some node => rfl

theorem charges_run (cluster : Cluster n) (actions : List (Action n)) :
    Charges key limiter cluster (cluster.run key limiter actions) := by
  induction actions generalizing cluster with
  | nil => exact .done cluster
  | cons action rest ih =>
    cases action with
    | change node change =>
      exact .change (tier_change cluster (Function.update cluster.breaker node (change (cluster.breaker node)))) rfl
        (ih _)
    | acquire node outage? => exact .charge (charged_of_answered (TieredStore.answered ..)).1 (ih _)

/-- All clocks show one reading, at which a charge is not forgotten. -/
structure Frozen (limiter : Limiter) (cluster : Cluster n) : Prop where
  outlives : cluster.clock < cluster.clock.after limiter.ttl
  clocks : ∀ tier, (cluster.tier tier).clock = cluster.clock

theorem Charged.grants (precise : limiter.Exact) (frozen : Frozen limiter cluster)
    (charged : Charged key limiter cluster entry next) {k : Nat}
    (holds : (cluster.tier entry.tier).Holds limiter key k) :
    (entry.admitted = true ↔ k + 1 ≤ limiter.capacity.toNat) ∧
      (next.tier entry.tier).Holds limiter key (if entry.admitted then k + 1 else k) := by
  have clock := frozen.clocks entry.tier
  have outlives := frozen.outlives
  have said : entry.admitted = ((cluster.tier entry.tier).charge key limiter 1 cluster.clock).allowed := by
    rw [Entry.admitted, charged.result]
  rw [← clock] at outlives
  obtain ⟨same, fits, meter, shown, used⟩ := MemoryStore.charge_holds precise outlives holds 1
  rw [clock] at same fits shown used
  rw [said, charged.store]
  exact ⟨fits (Nat.le_refl 1), MemoryStore.holds_of_used same shown used⟩

theorem Charged.frozen (frozen : Frozen limiter cluster) (charged : Charged key limiter cluster entry next) :
    Frozen limiter next := by
  constructor
  case outlives =>
    rw [charged.clock]
    exact frozen.outlives
  case clocks =>
    intro tier
    rw [charged.clock, ← frozen.clocks tier]
    by_cases here : tier = entry.tier
    · rw [here, charged.store]
      rfl
    · rw [charged.others tier here]

/-- Of the requests that a store answers it admits as many as it has permits left. -/
theorem Charges.admits (precise : limiter.Exact) {log : List (Entry n)}
    (charges : Charges key limiter cluster log)
    (frozen : Frozen limiter cluster) (tier : Option (Fin n)) {k : Nat}
    (holds : (cluster.tier tier).Holds limiter key k) :
    log.countP (·.grantedBy tier) = min (answered log tier) (limiter.capacity.toNat - k) := by
  induction charges generalizing k with
  | done cluster => exact (Nat.zero_min _).symm
  | change tiers clock rest ih =>
    refine ih ⟨?_, ?_⟩ ?_
    · rw [clock]
      exact frozen.outlives
    · rw [tiers, clock]
      exact frozen.clocks
    · rw [tiers]
      exact holds
  | charge charged rest ih =>
    rename_i cluster next entry log
    have later := charged.frozen frozen
    have counted : answered (entry :: log) tier = answered log tier + if entry.tier = tier then 1 else 0 := by
      simp [answered, List.count_cons]
    rw [List.countP_cons, counted]
    by_cases here : entry.tier = tier
    · subst here
      obtain ⟨granted, next⟩ := charged.grants precise frozen holds
      have tail := ih later next
      have own : entry.grantedBy entry.tier = entry.admitted := by simp [Entry.grantedBy]
      rw [tail, own, if_pos rfl]
      by_cases admits : entry.admitted = true
      · have room := granted.mp admits
        rw [if_pos admits, if_pos admits]
        omega
      · have full := mt granted.mpr admits
        rw [if_neg admits, if_neg admits]
        omega
    · have other : entry.grantedBy tier = false := by simp [Entry.grantedBy, here]
      have tail := ih later (by rwa [charged.others tier (Ne.symm here)])
      rw [tail, other, if_neg here]
      rfl

theorem admitted_eq_sum (log : List (Entry n)) : admitted log = ∑ tier, log.countP (·.grantedBy tier) := by
  induction log with
  | nil => exact (Finset.sum_const_zero (s := Finset.univ)).symm
  | cons entry log ih =>
    have one : ∑ tier, (if entry.grantedBy tier then 1 else 0) = if entry.admitted then 1 else 0 := by
      cases verdict : entry.admitted with
      | true => simp [Entry.grantedBy, verdict]
      | false => simp [Entry.grantedBy, verdict]
    simp only [admitted, List.countP_cons, Finset.sum_add_distrib, one] at ih ⊢
    rw [ih]

/-- What the stores granted and what they have left is their limits together. -/
theorem Fresh.conserves (fresh : cluster.Fresh key limiter) (actions : List (Action n)) :
    let log := cluster.run key limiter actions
    admitted log + ∑ tier, (limiter.capacity.toNat - answered log tier) = (n + 1) * limiter.capacity.toNat := by
  obtain ⟨draft, built⟩ := fresh.built
  have frozen : Frozen limiter cluster := ⟨MemoryStore.outlives fresh.early fresh.window, fresh.clocks⟩
  intro log
  have admits : ∀ tier, log.countP (·.grantedBy tier) = min (answered log tier) (limiter.capacity.toNat - 0) :=
    fun tier => (charges_run cluster actions).admits (Limiter.exact_of_build built fresh.capacity) frozen tier
      (MemoryStore.holds_fresh limiter (fresh.fresh tier))
  have full : ∀ tier, log.countP (·.grantedBy tier) + (limiter.capacity.toNat - answered log tier) =
      limiter.capacity.toNat := by
    intro tier
    rw [admits tier]
    omega
  rw [admitted_eq_sum, ← Finset.sum_add_distrib, Finset.sum_congr rfl fun tier _ => full tier]
  simp

private theorem run_append (cluster : Cluster n) (actions rest : List (Action n)) :
    ∃ next : Cluster n, cluster.run key limiter (actions ++ rest) =
      cluster.run key limiter actions ++ next.run key limiter rest := by
  induction actions generalizing cluster with
  | nil => exact ⟨cluster, rfl⟩
  | cons action actions ih =>
    obtain ⟨next, same⟩ := ih (cluster.step key limiter action).2
    refine ⟨next, ?_⟩
    rw [List.cons_append, run, run, same, List.append_assoc]

/-- A primary store that works behind a closed circuit answers, and the circuit stays closed. -/
private theorem acquire_working (closed : (cluster.breaker node).circuit = .closed) :
    let reply := Store.acquire (cluster.storeOf node none) key limiter 1 cluster.clock
    reply.events = [] ∧ reply.store.breaker.circuit = .closed := by
  obtain ⟨breaker, stays, same⟩ : ∃ breaker : Breaker, breaker.circuit = .closed ∧
      Store.acquire (cluster.storeOf node none) key limiter 1 cluster.clock = _ :=
    TieredStore.answer_healthy .acquire closed rfl
  rw [same]
  exact ⟨rfl, stays⟩

private theorem answered_working (cluster : Cluster n)
    (closed : (cluster.breaker node).circuit = .closed) (count : Nat) (rest : List (Action n)) :
    count ≤ answered (cluster.run key limiter (List.replicate count (.acquire node none) ++ rest)) none := by
  induction count generalizing cluster with
  | zero => exact Nat.zero_le _
  | succ count ih =>
    let reply := Store.acquire (cluster.storeOf node none) key limiter 1 cluster.clock
    obtain ⟨quiet, stays⟩ : reply.events = [] ∧ reply.store.breaker.circuit = .closed := acquire_working closed
    have still : ((cluster.put node reply.store).breaker node).circuit = .closed := by
      show (Function.update cluster.breaker node reply.store.breaker node).circuit = .closed
      rwa [Function.update_self]
    have first : Entry.tier ⟨node, reply.result, reply.events⟩ = none := by
      rw [Entry.tier, quiet]
      rfl
    have unfolded : cluster.run key limiter (List.replicate (count + 1) (.acquire node none) ++ rest) =
        ⟨node, reply.result, reply.events⟩ ::
          (cluster.put node reply.store).run key limiter (List.replicate count (.acquire node none) ++ rest) := rfl
    have counted : ∀ log : List (Entry n), answered (⟨node, reply.result, reply.events⟩ :: log) none =
        answered log none + 1 := by
      intro log
      rw [answered, List.map_cons, first, List.count_cons_self]
      rfl
    rw [unfolded, counted]
    exact Nat.succ_le_succ (ih _ still)

/-- While the primary store is out every node answers its own requests. -/
private theorem tiers_outage (cluster : Cluster n) (fault : StoreError) (nodes : List (Fin n)) :
    (cluster.run key limiter (nodes.map (.acquire · (some fault)))).map Entry.tier = nodes.map some := by
  induction nodes generalizing cluster with
  | nil => rfl
  | cons node nodes ih =>
    have own : Entry.tier ⟨node, _, _⟩ = some node :=
      (charged_of_answered (TieredStore.answered (cluster.storeOf node (some fault)) .acquire
      (Store.acquire · key limiter 1 cluster.clock) (Store.acquire · key limiter 1 cluster.clock))).2 (by simp)
    rw [List.map_cons, List.map_cons, ← ih]
    exact congrArg (· :: _) own

/-- One node uses up the shared limit before the primary store goes out, and then each node its own. -/
def worst (limit : Nat) (first : Fin n) (fault : StoreError) : List (Action n) :=
  List.replicate limit (.acquire first none) ++
    ((List.finRange n).flatMap (List.replicate limit)).map (.acquire · (some fault))

private theorem le_answered_worst (cluster : Cluster n) (first : Fin n)
    (closed : (cluster.breaker first).circuit = .closed)
    (limit : Nat) (fault : StoreError) (tier : Option (Fin n)) :
    limit ≤ answered (cluster.run key limiter (worst limit first fault)) tier := by
  cases tier with
  | none => exact answered_working cluster closed limit _
  | some node =>
    have asked : limit ≤ ((List.finRange n).flatMap (List.replicate limit)).count node := by
      have own : List.replicate limit node ∈ (List.finRange n).map (List.replicate limit) :=
        List.mem_map_of_mem (List.mem_finRange node)
      have least := (List.sublist_flatten_of_mem own).count_le node
      rwa [List.count_replicate_self] at least
    obtain ⟨next, same⟩ : ∃ next : Cluster n, cluster.run key limiter (worst limit first fault) = _ :=
      run_append cluster _ _
    rw [same, answered, List.map_append, List.count_append, tiers_outage,
      List.count_map_of_injective _ _ (Option.some_injective _)]
    exact asked.trans (Nat.le_add_left ..)

theorem Fresh.admitted_worst (fresh : cluster.Fresh key limiter) (first : Fin n) (fault : StoreError) :
    admitted (cluster.run key limiter (worst limiter.capacity.toNat first fault)) =
      (n + 1) * limiter.capacity.toNat := by
  have conserved := fresh.conserves (worst limiter.capacity.toNat first fault)
  have nothing : ∀ tier, limiter.capacity.toNat -
      answered (cluster.run key limiter (worst limiter.capacity.toNat first fault)) tier = 0 :=
    fun tier => Nat.sub_eq_zero_of_le (le_answered_worst cluster first (fresh.closed first) _ fault tier)
  simp only [nothing, Finset.sum_const_zero, Nat.add_zero] at conserved
  exact conserved

end

/-- The limits of all stores are the limit and the bound, and the limit once more. -/
private theorem limits_eq {nodes limit : UInt64} (inhabited : 1 ≤ nodes.toNat)
    (unsaturated : (nodes.toNat - 1) * limit.toNat < UInt64.size) :
    (nodes.toNat + 1) * limit.toNat = limit.toNat + (overAdmissionBound nodes limit).toNat + limit.toNat := by
  have bound : (overAdmissionBound nodes limit).toNat = (nodes.toNat - 1) * limit.toNat := by
    rw [overAdmissionBound, Timestamp.toNat_ofNatClamp]
    omega
  obtain ⟨others, count⟩ : ∃ others, nodes.toNat = others + 1 := ⟨_, (Nat.sub_add_cancel inhabited).symm⟩
  rw [bound, count, Nat.add_sub_cancel, Nat.succ_mul, Nat.succ_mul]
  omega

/-- Nodes admit no more than the limit and the advertised bound exactly if their stores together, the
shared one among them, have the limit left at the end, and so if one of them is never asked. They never
admit more than the limit beyond that, and in some run they do admit as much. -/
theorem within_bound_iff {nodes : UInt64} {cluster : Cluster nodes.toNat} {key : String} {limiter : Limiter}
    (fresh : cluster.Fresh key limiter) (inhabited : 1 ≤ nodes.toNat)
    (unsaturated : (nodes.toNat - 1) * limiter.capacity.toNat < UInt64.size) :
    let limit := limiter.capacity.toNat
    let bound := (overAdmissionBound nodes limiter.capacity).toNat
    (∀ actions, let log := cluster.run key limiter actions
      (admitted log ≤ limit + bound ↔ limit ≤ ∑ tier, (limit - answered log tier)) ∧
        (∀ tier, answered log tier = 0 → admitted log ≤ limit + bound) ∧
        admitted log ≤ limit + bound + limit) ∧
      ∃ actions, admitted (cluster.run key limiter actions) = limit + bound + limit := by
  have limits := limits_eq inhabited unsaturated
  intro limit bound
  constructor
  · intro actions log
    have conserved : admitted log + ∑ tier, (limit - answered log tier) = _ := fresh.conserves actions
    rw [limits] at conserved
    refine ⟨?_, fun tier unasked => ?_, ?_⟩
    · omega
    · have unused := Finset.single_le_sum (fun tier _ => Nat.zero_le (limit - answered log tier))
        (Finset.mem_univ tier)
      rw [unasked] at unused
      omega
    · omega
  · refine ⟨worst limit ⟨0, inhabited⟩ (.backend "boom"), ?_⟩
    rw [← limits]
    exact fresh.admitted_worst ..

/-- New nodes, each with a breaker like the others'. -/
def new (n : Nat) (breaker : Breaker) (clock : Timestamp) : Cluster n :=
  { primary := { clock }, fallback := fun _ => { clock }, breaker := fun _ => breaker, clock }

private theorem fresh_new {n : Nat} {breaker : Breaker} {clock : Timestamp} {limiter : Limiter} (key : String)
    (built : ∃ draft : Limiter.Draft, draft.build = .ok limiter) (window : .ofMillis 1 ≤ limiter.window)
    (capacity : limiter.capacity.toNat < 2 ^ 53) (early : clock < Timestamp.last)
    (closed : breaker.circuit = .closed) : (new n breaker clock).Fresh key limiter := by
  refine ⟨built, window, capacity, early, ?_, ?_, fun _ => closed⟩
  · intro tier
    cases tier with
    | none => rfl
    | some node => rfl
  · intro tier
    cases tier with
    | none => simp [new, Cluster.tier, MemoryStore.meter?]
    | some node => simp [new, Cluster.tier, MemoryStore.meter?]

section

/-- A breaker that opens at the first failure. -/
def touchy : Breaker :=
  .create "l1" { threshold := 1 / 2, minimumCalls := 1, window := .ofSeconds 60, recovery := .ofSeconds 30
                 jitter := .none, maxProbes := 1 } (.ofList []) 0

private theorem fresh_touchy (n : Nat) : (new n touchy 0).Fresh "key" (.single "api") := by
  have named : ¬ Text.isBlank "api" := by decide +kernel
  exact fresh_new "key" (Limiter.single_built named) (by decide) (by decide) (by decide) (Breaker.circuit_create ..)

/-- Two nodes that share one permit may admit three requests. -/
theorem two_nodes_admit_three :
    (new (2 : UInt64).toNat touchy 0).Fresh "key" (.single "api") ∧
      overAdmissionBound 2 (Limiter.single "api").capacity = 1 ∧
      ∃ actions, admitted ((new (2 : UInt64).toNat touchy 0).run "key" (.single "api") actions) = 3 := by
  refine ⟨fresh_touchy _, by decide, ?_⟩
  exact (within_bound_iff (fresh_touchy _) (by decide) (by decide)).2

/-- A node alone, which by the bound exceeds nothing, admits a request before the outage and one in it. -/
theorem node_alone_exceeds_bound :
    (new (1 : UInt64).toNat touchy 0).Fresh "key" (.single "api") ∧
      (Limiter.single "api").capacity.toNat + (overAdmissionBound 1 (Limiter.single "api").capacity).toNat = 1 ∧
      admitted ((new (1 : UInt64).toNat touchy 0).run "key" (.single "api")
        [.acquire ⟨0, by decide⟩ none, .acquire ⟨0, by decide⟩ (some (.backend "boom"))]) = 2 :=
  ⟨fresh_touchy _, by decide, (fresh_touchy _).admitted_worst ⟨0, by decide⟩ (.backend "boom")⟩

end

end Cluster
end Admission
