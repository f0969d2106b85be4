import Collectives.Proofs.Schedule
import Collectives.Proofs.Uncounted

/-!
# Plans that are used again

An endpoint keeps the plan of a call under the name that the call gives, if it gives one, and counts the calls whose plan
is there already. However calls, barriers and requests of all ranks follow each other, the endpoint has counted exactly
the calls whose plan is that of the latest call before them under the same name. Calls without a name, barriers and
calls that are refused change nothing, and neither do calls under other names.
-/

namespace Collectives

/-! ## Named calls -/

/-- The plan of the latest call under a name. -/
def latest (key : String) (calls : List (String × CallPlan)) : Option CallPlan :=
  ((calls.filter (·.1 = key)).getLast?).map Prod.snd

/-- How many calls have the plan of the latest call before them under the same name. -/
def reuses (calls : List (String × CallPlan)) : Nat :=
  calls.zipIdx.countP fun (call, i) => latest call.1 (calls.take i) = some call.2

section Named

variable {key : String} {calls : List (String × CallPlan)} {call : String × CallPlan}

theorem latest_concat (key : String) (calls : List (String × CallPlan)) (call : String × CallPlan) :
    latest key (calls ++ [call]) = if key = call.1 then some call.2 else latest key calls := by
  by_cases hkey : key = call.1
  · simp [latest, hkey]
  · simp [latest, hkey, Ne.symm hkey]

theorem reuses_concat (calls : List (String × CallPlan)) (call : String × CallPlan) :
    reuses (calls ++ [call]) = reuses calls + if latest call.1 calls = some call.2 then 1 else 0 := by
  have hbefore : calls.zipIdx.countP (fun (other, i) => latest other.1 ((calls ++ [call]).take i) = some other.2) =
      reuses calls := by
    refine List.countP_congr fun ⟨other, i⟩ hmem => ?_
    have hi : i ≤ calls.length := (List.snd_lt_of_mem_zipIdx hmem).le
    dsimp only
    rw [List.take_append_of_le_length hi]
  rw [reuses, List.zipIdx_append, List.countP_append, hbefore]
  simp [List.countP_cons]

/-- What is kept of the latest call under a name does not depend on calls under other names. -/
theorem latest_filter {p : String → Bool} (h : p key = true) (calls : List (String × CallPlan)) :
    latest key (calls.filter (p ·.1)) = latest key calls := by
  rw [latest, latest, List.filter_filter]
  congr 3
  funext call
  by_cases hkey : call.1 = key
  · simp [hkey, h]
  · simp [hkey]

/-- Among the calls under some names, one more call counts as it does among all. -/
theorem reuses_filter_concat (p : String → Bool) (calls : List (String × CallPlan)) (call : String × CallPlan) :
    reuses ((calls ++ [call]).filter (p ·.1)) =
      reuses (calls.filter (p ·.1)) + if p call.1 = true ∧ latest call.1 calls = some call.2 then 1 else 0 := by
  rw [List.filter_append, List.filter_singleton]
  cases hp : p call.1 with
  | true =>
    rw [cond_true, reuses_concat, latest_filter hp]
    simp
  | false =>
    rw [cond_false, List.append_nil]
    simp

/-- The calls under some names are counted apart from those under all others. -/
theorem reuses_apart (p : String → Bool) (calls : List (String × CallPlan)) :
    reuses calls = reuses (calls.filter (p ·.1)) + reuses (calls.filter (!p ·.1)) := by
  induction calls using List.reverseRecOn with
  | nil => rfl
  | append_singleton calls call ih =>
    rw [reuses_filter_concat p, reuses_filter_concat (fun key => !p key), reuses_concat, ih]
    cases p call.1 <;> simp <;> omega

end Named

namespace PlanCache

/-- The cache after some calls. -/
def lookupAll (cache : PlanCache) (calls : List (String × CallPlan)) : PlanCache :=
  calls.foldl (fun cache call => cache.lookup call.1 call.2) cache

theorem lookupAll_append (cache : PlanCache) (calls later : List (String × CallPlan)) :
    cache.lookupAll (calls ++ later) = (cache.lookupAll calls).lookupAll later := List.foldl_append

/-- A cache counts the calls that are reuses, and keeps the latest plan under each name. -/
theorem lookupAll_spec (calls : List (String × CallPlan)) :
    (lookupAll {} calls).hits = reuses calls ∧
      ∀ key, (lookupAll {} calls).plans.find? key = latest key calls := by
  induction calls using List.reverseRecOn with
  | nil => exact ⟨rfl, fun _ => rfl⟩
  | append_singleton calls call ih =>
    obtain ⟨hhits, hkept⟩ := ih
    have hlast : lookupAll {} (calls ++ [call]) = (lookupAll {} calls).lookup call.1 call.2 := lookupAll_append ..
    rw [hlast, reuses_concat]
    unfold lookup
    by_cases hsame : latest call.1 calls = some call.2
    · rw [if_pos ((hkept call.1).trans hsame), if_pos hsame]
      refine ⟨congrArg (· + 1) hhits, fun key => ?_⟩
      rw [latest_concat]
      split
      · rename_i hkey
        rw [hkey]
        exact (hkept call.1).trans hsame
      · exact hkept key
    · rw [if_neg (fun h => hsame ((hkept call.1).symm.trans h)), if_neg hsame]
      refine ⟨hhits, fun key => ?_⟩
      rw [latest_concat]
      dsimp only
      rw [Table.find?_insert, hkept]

end PlanCache

/-! ## Steps of the fabric -/

/-- The name and the plan of a turn by which a rank submits a call for which a plan is kept. -/
def Turn.planned (n rank : Nat) : Turn → Option (String × CallPlan)
  | .issue q _ call attr =>
    match Fabric.contribution n call with
    | .ok c => if q = rank then attr.cacheKey.map (·, c.plan) else none
    | .error _ => none
  | .create _ | .barrier .. | .test .. | .work _ => none

/-- Some table of the call has not one entry for every rank, or its root is none of the ranks. -/
def Call.Malformed (n : Nat) : Call → Prop
  | .bcast _ _ _ root | .reduce _ _ _ _ _ root => n ≤ root
  | .allgatherv _ _ recv recvCounts _ =>
    recvCounts.length ≠ n ∨ ∃ starts, recv = .perRank starts ∧ starts.length ≠ n
  | .alltoallv _ sendCounts _ recvCounts _ => sendCounts.length ≠ n ∨ recvCounts.length ≠ n
  | .allreduce .. | .alltoall .. => False

theorem Attributes.cacheKey_eq_some_iff {attr : Attributes} {key : String} :
    attr.cacheKey = some key ↔ attr.toCache = true ∧ attr.matchId = some key ∧ key ≠ "" := by
  unfold cacheKey
  split
  · simp [*, Option.filter_eq_some_iff]
  · simp [*]

namespace Fabric

variable {f : Fabric} {q rank comm : Nat} {c : Contribution} {attr : Attributes} {m : Machine Fabric}

/-- Only looking a plan up changes plans. -/
theorem cache_modifyEndpoint {change : Endpoint → Endpoint} (h : ∀ e, (change e).cache = e.cache) :
    ((f.modifyEndpoint q change).endpoint rank).cache = (f.endpoint rank).cache :=
  part_modifyEndpoint Endpoint.cache h

/-- A call is refused by one of the checks in a row, or not at all. -/
private theorem refuses_bind {α β : Type} {x : Except Refusal α} {g : α → Except Refusal β} :
    (∃ cause, (x >>= g) = .error (.error cause)) ↔
      (∃ cause, x = .error (.error cause)) ∨ ∃ a, x = .ok a ∧ ∃ cause, g a = .error (.error cause) := by
  cases x with
  | ok a => simp
  | error refusal =>
    have hfailed : ((.error refusal : Except Refusal α) >>= g) = .error refusal := rfl
    rw [hfailed]
    simp

private theorem not_refuses_mapM {α β : Type} {g : α → Except Refusal β} {xs : List α}
    (h : ∀ x, ¬∃ cause, g x = .error (.error cause)) : ¬∃ cause, xs.mapM g = .error (.error cause) := by
  induction xs with
  | nil => simp
  | cons x xs ih =>
    rw [List.mapM_cons, refuses_bind, not_or]
    refine ⟨h x, ?_⟩
    rintro ⟨y, -, hrest⟩
    rcases refuses_bind.mp hrest with hrest | ⟨ys, -, cause, hno⟩
    · exact ih hrest
    · cases hno

theorem checkRoot_refuses_iff {n root : Nat} :
    (∃ cause, checkRoot n root = .error (.error cause)) ↔ n ≤ root := by
  unfold checkRoot
  split <;> simp <;> omega

theorem checkCounts_refuses_iff {n : Nat} {table : String} {counts : List Nat} :
    (∃ cause, checkCounts n table counts = .error (.error cause)) ↔ counts.length ≠ n := by
  unfold checkCounts
  split <;> simp [*]

theorem checkCounts_passes_iff {n : Nat} {table : String} {counts : List Nat} :
    (∃ u, checkCounts n table counts = .ok u) ↔ counts.length = n := by
  unfold checkCounts
  split <;> simp [*]

theorem addresses_refuses_iff {n : Nat} {tag : Tag} {recvCounts : List Nat} {recv : Destination} :
    (∃ cause, addresses n tag recvCounts recv = .error (.error cause)) ↔
      ∃ starts, recv = .perRank starts ∧ starts.length ≠ n := by
  cases recv with
  | perRank starts =>
    rw [addresses]
    split <;> simp [*]
  | flat start =>
    have hsizes {α : Type} (x : Except Fault α) : ¬∃ cause, (liftM x : Except Refusal α) = .error (.error cause) := by
      rintro ⟨cause, h⟩
      cases x <;> cases h
    have hplaces (places : List Nat) : ¬∃ cause, (places.mapM fun place => do
        let bytes ← mulSize place tag.width
        .ok (start.advance bytes) : Except Refusal (List Address)) = .error (.error cause) := by
      refine not_refuses_mapM fun place => ?_
      rw [refuses_bind, not_or]
      refine ⟨hsizes _, ?_⟩
      rintro ⟨bytes, -, cause, hno⟩
      cases hno
    rw [addresses, refuses_bind]
    simpa [hsizes] using fun places _ cause hno => hplaces places ⟨cause, hno⟩

/-- The calls that are refused at issue are the malformed ones. -/
theorem contribution_refuses_iff {n : Nat} {call : Call} :
    (∃ cause, contribution n call = .error (.error cause)) ↔ call.Malformed n := by
  cases call with
  | bcast buffer count tag root =>
    simp [contribution, refuses_bind, checkRoot_refuses_iff, Call.Malformed]
  | allreduce send recv count tag op => simp [contribution, Call.Malformed]
  | reduce send recv count tag op root =>
    simp [contribution, refuses_bind, checkRoot_refuses_iff, Call.Malformed]
  | allgatherv send count recv recvCounts tag =>
    by_cases hrecv : recvCounts.length = n <;>
      simp [contribution, refuses_bind, checkCounts_refuses_iff, checkCounts_passes_iff, addresses_refuses_iff,
        Call.Malformed, hrecv]
  | alltoall send recv count tag => simp [contribution, Call.Malformed]
  | alltoallv send sendCounts recv recvCounts tag =>
    by_cases hsend : sendCounts.length = n <;>
      simp [contribution, refuses_bind, checkCounts_refuses_iff, checkCounts_passes_iff, Call.Malformed, hsend]

/-- A plan is looked up on the endpoint of the rank that submits. -/
theorem cache_withPlan (hr : rank < f.size) :
    ((f.withPlan q c attr).endpoint rank).cache =
      (f.endpoint rank).cache.lookupAll (if q = rank then attr.cacheKey.map (·, c.plan) else none).toList := by
  unfold withPlan
  cases attr.cacheKey with
  | none => simp [PlanCache.lookupAll]
  | some key =>
    dsimp only
    by_cases hq : q = rank
    · subst hq
      rw [endpoint_modifyEndpoint _ hr]
      simp [PlanCache.lookupAll]
    · rw [endpoint_modifyEndpoint_of_ne _ (Ne.symm hq)]
      simp [PlanCache.lookupAll, hq]

/-- A submission looks a plan up; nothing else of it concerns the plans of any rank, however it ends. -/
theorem cache_submit (rank : Nat) :
    ((submit q comm c attr).run m).2.net.size = m.net.size ∧
      (((submit q comm c attr).run m).2.net.endpoint rank).cache = ((m.net.withPlan q c attr).endpoint rank).cache := by
  have hplanned : (m.net.withPlan q c attr).size = m.net.size := by
    unfold withPlan
    split
    · exact size_modifyEndpoint _
    · rfl
  have hopened (f : Fabric) (ticket : Ticket) : ((f.modifyEndpoint q fun e =>
      { e with tickets := e.tickets ++ [ticket] }).endpoint rank).cache = (f.endpoint rank).cache :=
    cache_modifyEndpoint fun _ => rfl
  generalize hnext : (m.net.withPlan q c attr).nextCall q comm = next
  obtain ⟨number, f'⟩ := next
  have hcounted : f' = (m.net.withPlan q c attr).modifyEndpoint q fun e =>
      { e with issued := e.issued.modify comm (· + 1) } := (congrArg Prod.snd hnext).symm
  have hsize : f'.size = m.net.size := by rw [hcounted, size_modifyEndpoint, hplanned]
  have hcache : (f'.endpoint rank).cache = ((m.net.withPlan q c attr).endpoint rank).cache := by
    rw [hcounted]
    exact cache_modifyEndpoint fun _ => rfl
  rw [submit_eq hnext]
  rcases harrive : (arrive (comm, number) q c).run { m with net := f' } with ⟨arrived, m₁⟩
  obtain ⟨hend, -⟩ := arrive_net harrive
  have hsize' : m₁.net.size = m.net.size := by rw [Fabric.size, hend, ← hsize, Fabric.size]
  have hcache' : (m₁.net.endpoint rank).cache = ((m.net.withPlan q c attr).endpoint rank).cache := by
    rw [← hcache, endpoint, hend, endpoint]
  cases arrived with
  | error cause =>
    rw [run_bind_error harrive]
    exact ⟨hsize', hcache'⟩
  | ok =>
    rw [run_bind_ok harrive, openTicket_run]
    exact ⟨(size_modifyEndpoint _).trans hsize', (hopened _ _).trans hcache'⟩

end Fabric

namespace Turn

variable {n rank : Nat} {m : Machine Fabric}

/-- A turn looks up the plan of the call it submits; nothing else that a rank does concerns plans. -/
theorem step_cache (a : Turn) (hr : rank < m.net.size) :
    (a.step m).net.size = m.net.size ∧ ((a.step m).net.endpoint rank).cache =
      (m.net.endpoint rank).cache.lookupAll (a.planned m.net.size rank).toList := by
  cases a with
  | create q => exact ⟨Fabric.size_modifyEndpoint _, Fabric.cache_modifyEndpoint fun _ => rfl⟩
  | work change => exact ⟨rfl, rfl⟩
  | test q request =>
    obtain ⟨change, hend⟩ := Fabric.collect_endpoints q request m
    have hstep : (Turn.step m (.test q request)).net.endpoints =
      (m.net.modifyEndpoint q fun e => { e with tickets := change e.tickets }).endpoints := hend
    refine ⟨?_, ?_⟩
    · rw [Fabric.size, hstep]
      exact Fabric.size_modifyEndpoint _
    · rw [Fabric.endpoint, hstep]
      exact Fabric.cache_modifyEndpoint fun _ => rfl
  | barrier q comm =>
    have hstep : Turn.step m (.barrier q comm) = ((Fabric.submit q comm Fabric.barrierContribution {}).run m).2 :=
      run_bind_pure_snd (Fabric.submit q comm Fabric.barrierContribution {}) some m
    rw [hstep]
    exact Fabric.cache_submit rank
  | issue q comm call attr =>
    cases hc : Fabric.contribution m.net.size call with
    | error cause =>
      have hstep : Turn.step m (.issue q comm call attr) = m := congrArg Prod.snd (Fabric.issue_refused hc)
      rw [hstep, planned, hc]
      exact ⟨rfl, rfl⟩
    | ok c =>
      have hstep : Turn.step m (.issue q comm call attr) = ((Fabric.submit q comm c attr).run m).2 :=
        congrArg Prod.snd (Fabric.issue_run hc)
      rw [hstep, planned, hc]
      exact ⟨(Fabric.cache_submit rank).1, (Fabric.cache_submit rank).2.trans (Fabric.cache_withPlan hr)⟩

theorem planned_eq_some_iff {a : Turn} {key : String} {plan : CallPlan} :
    a.planned n rank = some (key, plan) ↔ ∃ comm call attr c, a = .issue rank comm call attr ∧
      (attr.toCache = true ∧ attr.matchId = some key ∧ key ≠ "") ∧ Fabric.contribution n call = .ok c ∧
      plan = { kind := c.kind, tag := c.tag, counts := c.sendCounts ++ c.recvCounts } := by
  constructor
  · intro h
    cases a with
    | issue q comm call attr =>
      rw [planned] at h
      split at h
      · rename_i c hc
        split at h
        · rename_i hq
          obtain ⟨kept, hkept, hplan⟩ := Option.map_eq_some_iff.mp h
          cases hplan
          exact ⟨comm, call, attr, c, hq ▸ rfl, Attributes.cacheKey_eq_some_iff.mp hkept, hc, rfl⟩
        · cases h
      · cases h
    | _ => cases h
  · rintro ⟨comm, call, attr, c, rfl, hkey, hc, rfl⟩
    rw [planned, hc]
    dsimp only
    rw [if_pos rfl, Attributes.cacheKey_eq_some_iff.mpr hkey]
    rfl

end Turn

/-- The machine after some turns on a new fabric of `n` ranks. -/
def Fabric.after (n : Nat) (store : Store) (turns : List Turn) : Machine Fabric :=
  turns.foldl Turn.step { store, net := Fabric.ofSize n }

/-- After any turns, the plans of a rank are those of the calls for which it keeps plans, looked up one after the
other. -/
theorem Fabric.cache_after {n rank : Nat} (hr : rank < n) (store : Store) (turns : List Turn) :
    (Fabric.after n store turns).net.size = n ∧ ((Fabric.after n store turns).net.endpoint rank).cache =
      PlanCache.lookupAll {} (turns.filterMap (Turn.planned n rank)) := by
  induction turns using List.reverseRecOn with
  | nil =>
    refine ⟨List.length_replicate, ?_⟩
    rw [Fabric.after, List.foldl_nil, Fabric.endpoint_ofSize]
    rfl
  | append_singleton turns a ih =>
    obtain ⟨hsize, hcache⟩ := ih
    have hlast : Fabric.after n store (turns ++ [a]) = a.step (Fabric.after n store turns) := by
      rw [Fabric.after, List.foldl_concat, Fabric.after]
    have hrank : rank < (Fabric.after n store turns).net.size := hsize.symm ▸ hr
    obtain ⟨hsize', hcache'⟩ := a.step_cache hrank
    have hplanned : [a].filterMap (Turn.planned n rank) = (a.planned n rank).toList := by
      rw [List.filterMap_cons]
      cases a.planned n rank <;> rfl
    rw [hlast, hcache', hcache, hsize', hsize, List.filterMap_append, PlanCache.lookupAll_append, hplanned]
    exact ⟨rfl, rfl⟩

/-- On a fabric of `n` ranks, however the turns of all ranks follow each other, a rank has counted exactly the calls whose
plan is that of the latest call before them under the same name, of those that are issued under a name that is not empty
with plans to be kept and that pass the checks at issue. Under each name it keeps the plan of the latest call. Calls under
some names are counted as if there were no others. Any other turn leaves the plans as they are, and a malformed call
leaves everything as it is. -/
theorem Fabric.reuses_counted {n rank : Nat} (hr : rank < n) (store : Store) (turns : List Turn) :
    (Fabric.after n store turns).net.planHits rank = reuses (turns.filterMap (Turn.planned n rank)) ∧
      (∀ key, ((Fabric.after n store turns).net.endpoint rank).cache.plans.find? key =
        latest key (turns.filterMap (Turn.planned n rank))) ∧
      (∀ (a : Turn) (key : String) (plan : CallPlan), a.planned n rank = some (key, plan) ↔
        ∃ comm call attr c, a = .issue rank comm call attr ∧
          (attr.toCache = true ∧ attr.matchId = some key ∧ key ≠ "") ∧ Fabric.contribution n call = .ok c ∧
          plan = { kind := c.kind, tag := c.tag, counts := c.sendCounts ++ c.recvCounts }) ∧
      (∀ names : String → Bool, reuses (turns.filterMap (Turn.planned n rank)) =
        reuses ((turns.filterMap (Turn.planned n rank)).filter (names ·.1)) +
          reuses ((turns.filterMap (Turn.planned n rank)).filter (!names ·.1))) ∧
      (∀ a : Turn, a.planned n rank = none →
        ((a.step (Fabric.after n store turns)).net.endpoint rank).cache =
          ((Fabric.after n store turns).net.endpoint rank).cache) ∧
      ∀ (comm : Nat) (call : Call) (attr : Attributes), call.Malformed n →
        (Turn.issue rank comm call attr).step (Fabric.after n store turns) = Fabric.after n store turns := by
  obtain ⟨hsize, hcache⟩ := Fabric.cache_after hr store turns
  obtain ⟨hhits, hkept⟩ := PlanCache.lookupAll_spec (turns.filterMap (Turn.planned n rank))
  refine ⟨?_, fun key => ?_, fun a key plan => Turn.planned_eq_some_iff, fun names => reuses_apart names _,
    fun a hnone => ?_, fun comm call attr hbad => ?_⟩
  · rw [Fabric.planHits, hcache, hhits]
  · rw [hcache, hkept]
  · obtain ⟨-, hstep⟩ := a.step_cache (m := Fabric.after n store turns) (hsize.symm ▸ hr)
    rw [hstep, hsize, hnone]
    rfl
  · rw [← hsize] at hbad
    obtain ⟨cause, hrefused⟩ := Fabric.contribution_refuses_iff.mpr hbad
    exact congrArg Prod.snd (Fabric.issue_refused hrefused)

/-- On two communicators, a call of four elements is used again twice: when it is issued once more, and after a longer
one in between was followed by a shorter one again. The longer one is not used again, nor is the shorter one right after
it, nor a call under another name; a barrier, a call without a name and a call to a root that is not there do not count. -/
theorem Fabric.reuses_counted_alternating :
    ∃ turns : List Turn, turns.length = 12 ∧ (Fabric.after 2 {} turns).net.planHits 0 = 2 ∧
      (turns.filterMap (Turn.planned 2 0)).map Prod.fst = ["a", "a", "a", "a", "b", "a"] ∧
      ((Fabric.after 2 {} turns).net.endpoint 0).cache.plans.find? "b" =
        some { kind := .allreduce, tag := .int, counts := [4] } := by
  let named (key : String) : Attributes := { toCache := true, matchId := some key }
  let sum (count : Nat) : Call := .allreduce .nowhere .nowhere count .int .sum
  let turns : List Turn := [.create 0, .create 0, .issue 0 0 (sum 4) (named "a"), .issue 0 1 (sum 4) (named "a"),
    .issue 0 0 (sum 8) (named "a"), .issue 0 0 (sum 4) (named "a"), .issue 0 0 (sum 4) (named "b"), .barrier 0 1,
    .issue 0 0 (sum 8) (named ""), .issue 0 0 (.bcast .nowhere 4 .int 2) (named "a"), .issue 1 0 (sum 8) (named "a"),
    .issue 0 1 (sum 4) (named "a")]
  obtain ⟨hhits, hkept, -⟩ := Fabric.reuses_counted (by decide : 0 < 2) {} turns
  refine ⟨turns, rfl, ?_, rfl, ?_⟩
  · rw [hhits]
    rfl
  · rw [hkept]
    rfl

end Collectives
