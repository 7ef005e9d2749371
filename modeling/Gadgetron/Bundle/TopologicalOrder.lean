import Mathlib.Algebra.Ring.Nat
import Gadgetron.Lib.OrdSet
import Gadgetron.Lib.Exec
import Gadgetron.Lib.Cycle

/-!
# Ordering bundles by their required providers

`topologicalOrder` and `participatesInCycle` of the bundle SDK, over an arbitrary linearly ordered
type of bundle ids.
-/

namespace Gadgetron.Bundle

open Lib Relation List

variable {α : Type} [LinearOrder α]

/-- Consumers of a bundle in the edge map (`edges.get(id).into_iter().flatten()`). -/
def consumersOf (edges : OrdMap α (OrdSet α)) (bundleId : α) : List α :=
  ((edges.get? bundleId).map OrdSet.toList).getD []

/-- `consumer` is among the consumers of `provider`. -/
def Edge (edges : OrdMap α (OrdSet α)) (provider consumer : α) : Prop :=
  consumer ∈ consumersOf edges provider

instance (edges : OrdMap α (OrdSet α)) (p c : α) : Decidable (Edge edges p c) :=
  inferInstanceAs (Decidable (c ∈ consumersOf edges p))

variable {edges : OrdMap α (OrdSet α)} {p c : α}

theorem mem_consumersOf : c ∈ consumersOf edges p ↔ Edge edges p c := Iff.rfl

/-! ## `topological_order` -/

def countIndegree (desiredEnabled : OrdSet α) (edges : OrdMap α (OrdSet α)) : OrdMap α ℕ :=
  (OrdMap.const desiredEnabled 0).tally edges.values

structure OrderState (α : Type) [LT α] where
  indegree : OrdMap α ℕ
  ready : OrdSet α
  order : List α

/-- The body of the inner loop: one provider of `consumer` has been ordered. -/
def relax (st : OrderState α) (consumer : α) : Except Fault (OrderState α) :=
  match st.indegree.get? consumer with
  | none => .error (.expect "edge consumer belongs to desired set")
  | some 0 => .error .subtractOverflow
  | some (degree + 1) => .ok
      { st with
        indegree := st.indegree.insert consumer degree
        ready := if degree = 0 then st.ready.insert consumer else st.ready }

/-- `while let Some(bundle_id) = ready.pop_first()`. -/
def orderLoop (edges : OrdMap α (OrdSet α)) : ℕ → OrderState α → Except Fault (List α)
  | 0, _ => .error .outOfFuel
  | fuel + 1, st =>
    match st.ready.popFirst with
    | none => .ok st.order
    | some (bundleId, ready) => do
      let st ← (consumersOf edges bundleId).foldlM relax
        { st with ready, order := st.order ++ [bundleId] }
      orderLoop edges fuel st

/-- `while let Some(bundle_id) = pending.pop()`; the last pushed element is the head of the list. -/
def cycleLoop (start : α) (unresolved : OrdSet α) (edges : OrdMap α (OrdSet α)) :
    ℕ → OrdSet α → List α → Except Fault Bool
  | 0, _, _ => .error .outOfFuel
  | _ + 1, _, [] => .ok false
  | fuel + 1, visited, bundleId :: pending =>
    if bundleId = start then .ok true
    else if bundleId ∈ visited then cycleLoop start unresolved edges fuel visited pending
    else cycleLoop start unresolved edges fuel (visited.insert bundleId)
      (((consumersOf edges bundleId).filter fun next => decide (next ∈ unresolved)).reverse ++
        pending)

def edgeCount (edges : OrdMap α (OrdSet α)) : ℕ :=
  (edges.keys.toList.map fun p => (consumersOf edges p).length).sum

/-- `participates_in_cycle`: search for `start` from its own consumers, inside `unresolved`. -/
def participatesInCycle (start : α) (unresolved : OrdSet α) (edges : OrdMap α (OrdSet α)) :
    Except Fault Bool :=
  cycleLoop start unresolved edges ((consumersOf edges start).length + edgeCount edges + 1)
    OrdSet.empty
    ((consumersOf edges start).filter fun b => decide (b ∈ unresolved)).reverse

def cycleMembers (unresolved : OrdSet α) (edges : OrdMap α (OrdSet α)) :
    List α → Except Fault (List α)
  | [] => .ok []
  | b :: rest => do
    let keep ← participatesInCycle b unresolved edges
    let members ← cycleMembers unresolved edges rest
    return if keep then b :: members else members

/-- `topological_order`: the enable order and, when it is incomplete, the bundles on a cycle. -/
def topologicalOrder (desiredEnabled : OrdSet α) (edges : OrdMap α (OrdSet α)) :
    Except Fault (List α × Option (List α)) := do
  let indegree := countIndegree desiredEnabled edges
  let ready := indegree.keys.filter fun b => decide (indegree.get? b = some 0)
  let order ← orderLoop edges (desiredEnabled.length + 1) ⟨indegree, ready, []⟩
  if order.length = desiredEnabled.length then
    return (order, none)
  else
    let unresolved := desiredEnabled.diff (OrdSet.ofList order)
    let cycle ← cycleMembers unresolved edges unresolved.toList
    return ([], some cycle)

/-! ## The in-degree counter -/

theorem mem_keys_of_edge (h : Edge edges p c) : p ∈ edges.keys := by
  rw [Edge, consumersOf] at h
  rcases hp : edges.get? p with _ | cs
  · simp [hp] at h
  · exact OrdMap.mem_keys_of_get? hp

theorem nodup_consumersOf (edges : OrdMap α (OrdSet α)) (p : α) : (consumersOf edges p).Nodup := by
  rw [consumersOf]
  rcases edges.get? p with _ | cs
  · exact nodup_nil
  · exact cs.nodup

/-- The number of providers of `c` that are not yet in `order`. -/
def openProviders (edges : OrdMap α (OrdSet α)) (order : List α) (c : α) : ℕ :=
  edges.keys.toList.countP fun p => decide (Edge edges p c ∧ p ∉ order)

variable {order : List α}

theorem openProviders_eq_zero_iff {c : α} :
    openProviders edges order c = 0 ↔ ∀ p, Edge edges p c → p ∈ order := by
  rw [openProviders, countP_eq_zero]
  constructor
  · intro h p hp
    by_contra hno
    exact h p (mem_keys_of_edge hp) (by simp [hp, hno])
  · intro h p _ hp
    obtain ⟨he, hno⟩ := of_decide_eq_true hp
    exact hno (h p he)

theorem countP_erase_one {l : List α} (hl : l.Nodup) (q : α → Bool) (b : α) :
    l.countP q =
      l.countP (fun x => q x && decide (x ≠ b)) + if b ∈ l ∧ q b = true then 1 else 0 := by
  induction l with
  | nil => simp
  | cons a l ih =>
    obtain ⟨ha, hl⟩ := nodup_cons.1 hl
    rw [countP_cons, countP_cons, ih hl]
    by_cases hab : a = b
    · subst hab
      simp [ha]
    · have hba : b ≠ a := Ne.symm hab
      by_cases hq : q a = true
      · simp [hab, hba, hq]
        omega
      · simp [hab, hba, hq]

theorem openProviders_append (edges : OrdMap α (OrdSet α)) {b : α}
    (hb : b ∉ order) (c : α) : openProviders edges order c =
      openProviders edges (order ++ [b]) c + if Edge edges b c then 1 else 0 := by
  rw [openProviders, countP_erase_one edges.keys.nodup _ b]
  congr 1
  · rw [openProviders]
    refine countP_congr fun p _ => ?_
    simp only [decide_eq_true_eq, Bool.and_eq_true, mem_append, mem_singleton, not_or]
    tauto
  · refine if_congr ?_ rfl rfl
    simp only [decide_eq_true_eq, OrdSet.mem_toList]
    exact ⟨fun h => h.2.1, fun h => ⟨mem_keys_of_edge h, h, hb⟩⟩

theorem countP_values (edges : OrdMap α (OrdSet α)) (c : α) :
    edges.values.countP (fun cs => decide (c ∈ cs)) = openProviders edges [] c := by
  rw [OrdMap.values, countP_filterMap, openProviders]
  refine countP_congr fun p _ => ?_
  rcases hp : edges.get? p with _ | cs <;> simp [Edge, consumersOf, hp]

variable {desired : OrdSet α}

theorem get?_countIndegree (hcons : ∀ p c, Edge edges p c → c ∈ desired) (c : α) :
    (countIndegree desired edges).get? c =
      if c ∈ desired then some (openProviders edges [] c) else none := by
  rw [countIndegree, OrdMap.get?_tally, countP_values, OrdMap.get?_const]
  by_cases hc : c ∈ desired
  · by_cases h0 : openProviders edges [] c = 0 <;> simp [hc, h0]
  · have h0 : openProviders edges [] c = 0 :=
      openProviders_eq_zero_iff.2 fun p hp => absurd (hcons p c hp) hc
    simp [hc, h0]

/-! ## The ordering loop -/

theorem foldlM_relax {cs : List α} (hcs : cs.Nodup) (st : OrderState α)
    (hpos : ∀ c ∈ cs, ∃ d, st.indegree.get? c = some (d + 1)) :
    ∃ st', cs.foldlM relax st = .ok st' ∧ st'.order = st.order ∧ (∀ c, st'.indegree.get? c =
        if c ∈ cs then (st.indegree.get? c).map (· - 1) else st.indegree.get? c) ∧
      ∀ c, c ∈ st'.ready ↔ c ∈ st.ready ∨ c ∈ cs ∧ st.indegree.get? c = some 1 := by
  induction cs generalizing st with
  | nil => exact ⟨st, rfl, rfl, by simp, by simp⟩
  | cons a cs ih =>
    obtain ⟨ha, hcs⟩ := nodup_cons.1 hcs
    obtain ⟨d, hd⟩ := hpos a mem_cons_self
    have hrelax : relax st a = .ok
        { st with
          indegree := st.indegree.insert a d
          ready := if d = 0 then st.ready.insert a else st.ready } := by
      rw [relax, hd]
    have hne : ∀ c ∈ cs, c ≠ a := by
      rintro c hc rfl
      exact ha hc
    obtain ⟨st', hst', ho, hin, hr⟩ := ih hcs
      { st with
        indegree := st.indegree.insert a d
        ready := if d = 0 then st.ready.insert a else st.ready } (by
      intro c hc
      obtain ⟨d', hd'⟩ := hpos c (mem_cons_of_mem _ hc)
      exact ⟨d', by rw [OrdMap.get?_insert, if_neg (hne c hc), hd']⟩)
    refine ⟨st', ?_, ho, fun c => ?_, fun c => ?_⟩
    · rw [foldlM_cons, hrelax]
      exact hst'
    · rw [hin]
      by_cases hca : c = a
      · subst hca
        simp [ha, OrdMap.get?_insert, hd]
      · simp [hca, OrdMap.get?_insert]
    · rw [hr]
      by_cases hca : c = a
      · subst hca
        by_cases h0 : d = 0 <;> simp [ha, hd, h0]
      · by_cases h0 : d = 0 <;> simp [hca, h0, OrdMap.get?_insert]

structure OrderInv (desired : OrdSet α) (edges : OrdMap α (OrdSet α)) (st : OrderState α) :
    Prop where
  nodup : st.order.Nodup
  mem_desired : ∀ b ∈ st.order, b ∈ desired
  indegree : ∀ c ∈ desired, st.indegree.get? c = some (openProviders edges st.order c)
  ready : ∀ c, c ∈ st.ready ↔ c ∈ desired ∧ c ∉ st.order ∧ openProviders edges st.order c = 0
  before : ∀ l₁ c l₂, st.order = l₁ ++ c :: l₂ → ∀ p, Edge edges p c → p ∈ l₁

section

variable {desired : OrdSet α} {edges : OrdMap α (OrdSet α)}

theorem orderInv_initial (hcons : ∀ p c, Edge edges p c → c ∈ desired) : OrderInv desired edges
      ⟨countIndegree desired edges, (countIndegree desired edges).keys.filter fun b =>
        decide ((countIndegree desired edges).get? b = some 0), []⟩ where
  nodup := nodup_nil
  mem_desired := by simp
  indegree c hc := by rw [get?_countIndegree hcons, if_pos hc]
  ready c := by
    rw [OrdSet.mem_filter, OrdMap.mem_keys, get?_countIndegree hcons]
    by_cases hc : c ∈ desired <;> simp [hc]
  before l₁ c l₂ h := by simp at h

variable {st : OrderState α}

theorem OrderInv.before_append (hinv : OrderInv desired edges st) {b : α}
    (hall : ∀ p, Edge edges p b → p ∈ st.order) {l₁ l₂ : List α} {c : α}
    (h : st.order ++ [b] = l₁ ++ c :: l₂) {p : α} (hp : Edge edges p c) : p ∈ l₁ := by
  rcases eq_nil_or_concat l₂ with rfl | ⟨l₂', z, rfl⟩
  · obtain ⟨rfl, hcb⟩ := append_inj' h rfl
    obtain rfl : b = c := by simpa using hcb
    exact hall p hp
  · have h' : st.order ++ [b] = (l₁ ++ c :: l₂') ++ [z] := by simpa using h
    obtain ⟨h₁, -⟩ := append_inj' h' rfl
    exact hinv.before l₁ c l₂' h₁ p hp

section

variable (hcons : ∀ p c, Edge edges p c → c ∈ desired)

include hcons

theorem OrderInv.ready_append (hinv : OrderInv desired edges st) {b : α} (hbo : b ∉ st.order)
    (hall : ∀ p, Edge edges p b → p ∈ st.order) (c : α) :
    (c ∈ st.ready ∧ c ≠ b ∨ Edge edges b c ∧ st.indegree.get? c = some 1) ↔
      c ∈ desired ∧ c ∉ st.order ++ [b] ∧ openProviders edges (st.order ++ [b]) c = 0 := by
  have hopen := openProviders_append edges hbo c
  rw [hinv.ready, mem_append, mem_singleton, not_or]
  constructor
  · rintro (⟨⟨hc, hco, hc0⟩, hcb⟩ | ⟨hbc, h1⟩)
    · exact ⟨hc, ⟨hco, hcb⟩, by omega⟩
    · have hc : c ∈ desired := hcons b c hbc
      rw [hinv.indegree c hc, Option.some.injEq] at h1
      rw [if_pos hbc] at hopen
      refine ⟨hc, ⟨fun hco => ?_, fun hcb => ?_⟩, by omega⟩
      · -- an ordered bundle has only ordered providers, and `b` is not ordered yet
        obtain ⟨l₁, l₂, hl⟩ := append_of_mem hco
        exact hbo (by rw [hl]; exact mem_append_left _ (hinv.before l₁ c l₂ hl b hbc))
      · subst hcb
        exact hbo (hall c hbc)
  · rintro ⟨hc, ⟨hco, hcb⟩, hc0⟩
    by_cases hbc : Edge edges b c
    · refine Or.inr ⟨hbc, ?_⟩
      rw [hinv.indegree c hc, hopen, hc0, if_pos hbc]
    · refine Or.inl ⟨⟨hc, hco, ?_⟩, hcb⟩
      rw [hopen, hc0, if_neg hbc]

theorem OrderInv.step (hinv : OrderInv desired edges st) {b : α} {ready : OrdSet α}
    (hpop : st.ready.popFirst = some (b, ready)) : ∃ st', (consumersOf edges b).foldlM relax
        { st with ready, order := st.order ++ [b] } = .ok st' ∧
      st'.order = st.order ++ [b] ∧ OrderInv desired edges st' := by
  obtain ⟨hb, -, hready⟩ := OrdSet.popFirst_eq_some hpop
  obtain ⟨hbd, hbo, hb0⟩ := (hinv.ready b).1 hb
  have hall : ∀ p, Edge edges p b → p ∈ st.order := openProviders_eq_zero_iff.1 hb0
  have hopen := openProviders_append edges hbo
  obtain ⟨st', hrun, ho, hin, hr⟩ := foldlM_relax (nodup_consumersOf edges b)
    { st with ready, order := st.order ++ [b] } (by
      intro c hc
      rw [mem_consumersOf] at hc
      refine ⟨openProviders edges (st.order ++ [b]) c, ?_⟩
      rw [hinv.indegree c (hcons b c hc), hopen c, if_pos hc])
  simp only [mem_consumersOf] at ho hin hr
  refine ⟨st', hrun, ho, ?_⟩
  have hin' : ∀ c ∈ desired, st'.indegree.get? c = some (openProviders edges st'.order c) := by
    intro c hc
    rw [hin, ho, hinv.indegree c hc, hopen c]
    by_cases he : Edge edges b c
    · rw [if_pos he, if_pos he]
      simp
    · rw [if_neg he, if_neg he]
      rfl
  refine ⟨?_, ?_, hin', fun c => ?_, fun l₁ c l₂ h p hp => ?_⟩
  · rw [ho]
    exact nodup_append.2 ⟨hinv.nodup, nodup_singleton b, by
      rintro x hx y hy rfl
      exact hbo (mem_singleton.1 hy ▸ hx)⟩
  · rw [ho]
    intro c hc
    rcases mem_append.1 hc with hc | hc
    · exact hinv.mem_desired c hc
    · rw [mem_singleton.1 hc]
      exact hbd
  · rw [hr, hready, ho]
    exact hinv.ready_append hcons hbo hall c
  · rw [ho] at h
    exact hinv.before_append hall h hp

theorem orderLoop_spec (fuel : ℕ)
    (hinv : OrderInv desired edges st)
    (hfuel : desired.length < fuel + st.order.length) :
    ∃ st', orderLoop edges fuel st = .ok st'.order ∧ OrderInv desired edges st' ∧
      ∀ c, c ∉ st'.ready := by
  induction fuel generalizing st with
  | zero =>
    have := OrdSet.length_le_of_nodup hinv.nodup hinv.mem_desired
    omega
  | succ fuel ih =>
    rw [orderLoop]
    rcases hpop : st.ready.popFirst with _ | ⟨b, ready⟩
    · exact ⟨st, rfl, hinv, OrdSet.popFirst_eq_none hpop⟩
    · obtain ⟨st₁, hrun, ho, hinv₁⟩ := hinv.step hcons hpop
      obtain ⟨st', hloop, hrest⟩ := ih hinv₁ (by
        rw [ho, List.length_append, List.length_singleton]
        omega)
      refine ⟨st', ?_, hrest⟩
      simp only [hrun]
      exact hloop

end

end

/-! ## The search for a cycle -/

section

variable {start : α} {unresolved : OrdSet α} {edges : OrdMap α (OrdSet α)}

def OpenEdge (unresolved : OrdSet α) (edges : OrdMap α (OrdSet α)) (p c : α) : Prop :=
  Edge edges p c ∧ c ∈ unresolved

theorem mem_pushed {p c : α} :
    c ∈ ((consumersOf edges p).filter fun next => decide (next ∈ unresolved)).reverse ↔
      OpenEdge unresolved edges p c := by
  simp [OpenEdge, mem_consumersOf]

def unvisitedEdges (edges : OrdMap α (OrdSet α)) (visited : OrdSet α) : ℕ :=
  (edges.keys.toList.map fun p => if p ∈ visited then 0 else (consumersOf edges p).length).sum

theorem unvisitedEdges_empty : unvisitedEdges edges OrdSet.empty = edgeCount edges := by
  simp [unvisitedEdges, edgeCount]

variable {visited : OrdSet α} {b : α}

theorem sum_map_insert {l : List α} (hl : l.Nodup) (f : α → ℕ) (hb : b ∉ visited) :
    (l.map fun p => if p ∈ visited.insert b then 0 else f p).sum + (if b ∈ l then f b else 0) =
      (l.map fun p => if p ∈ visited then 0 else f p).sum := by
  induction l with
  | nil => simp
  | cons a l ih =>
    obtain ⟨ha, hl⟩ := nodup_cons.1 hl
    have ih := ih hl
    simp only [map_cons, sum_cons, mem_cons]
    by_cases hab : a = b
    · subst hab
      simp only [ha, if_false, OrdSet.mem_insert, true_or, if_true, hb] at ih ⊢
      omega
    · have hba : ¬ b = a := fun h => hab h.symm
      simp only [OrdSet.mem_insert, hab, hba, false_or] at ih ⊢
      omega

theorem unvisitedEdges_insert (edges : OrdMap α (OrdSet α))
    (hb : b ∉ visited) : unvisitedEdges edges (visited.insert b) + (consumersOf edges b).length =
      unvisitedEdges edges visited := by
  have h := sum_map_insert edges.keys.nodup (fun p => (consumersOf edges p).length) hb
  rw [unvisitedEdges, unvisitedEdges, ← h]
  congr 1
  by_cases hk : b ∈ edges.keys
  · rw [if_pos (OrdSet.mem_toList.2 hk)]
  · have hno : consumersOf edges b = [] := by
      rw [eq_nil_iff_forall_not_mem]
      intro c hc
      exact hk (mem_keys_of_edge hc)
    rw [if_neg (fun h => hk (OrdSet.mem_toList.1 h)), hno, length_nil]

structure SearchInv (start : α) (unresolved : OrdSet α) (edges : OrdMap α (OrdSet α))
    (visited : OrdSet α) (pending : List α) : Prop where
  reached : ∀ x ∈ pending, TransGen (OpenEdge unresolved edges) start x
  start_not_mem : start ∉ visited
  frontier : ∀ x, x = start ∨ x ∈ visited → ∀ y, OpenEdge unresolved edges x y →
    y ∈ visited ∨ y ∈ pending

variable {pending : List α}

theorem SearchInv.skip
    (hinv : SearchInv start unresolved edges visited (b :: pending)) (hb : b ∈ visited) :
    SearchInv start unresolved edges visited pending where
  reached x hx := hinv.reached x (mem_cons_of_mem _ hx)
  start_not_mem := hinv.start_not_mem
  frontier x hx y hy := by
    rcases hinv.frontier x hx y hy with h | h
    · exact Or.inl h
    · rcases mem_cons.1 h with rfl | h
      · exact Or.inl hb
      · exact Or.inr h

theorem SearchInv.visit
    (hinv : SearchInv start unresolved edges visited (b :: pending)) (hb : b ≠ start) :
    SearchInv start unresolved edges (visited.insert b)
      (((consumersOf edges b).filter fun next => decide (next ∈ unresolved)).reverse ++
        pending) where
  reached x hx := by
    rcases mem_append.1 hx with hx | hx
    · exact (hinv.reached b mem_cons_self).tail (mem_pushed.1 hx)
    · exact hinv.reached x (mem_cons_of_mem _ hx)
  start_not_mem h := by
    rcases OrdSet.mem_insert.1 h with h | h
    · exact hb h.symm
    · exact hinv.start_not_mem h
  frontier x hx y hy := by
    by_cases hxb : x = b
    · subst hxb
      exact Or.inr (mem_append_left _ (mem_pushed.2 hy))
    · have hx' : x = start ∨ x ∈ visited := by simpa [hxb] using hx
      rcases hinv.frontier x hx' y hy with h | h
      · exact Or.inl (OrdSet.mem_insert.2 (Or.inr h))
      · rcases mem_cons.1 h with rfl | h
        · exact Or.inl (OrdSet.mem_insert.2 (Or.inl rfl))
        · exact Or.inr (mem_append_right _ h)

theorem cycleLoop_spec (fuel : ℕ) (hinv : SearchInv start unresolved edges visited pending)
    (hfuel : pending.length + unvisitedEdges edges visited < fuel) :
    ∃ b, cycleLoop start unresolved edges fuel visited pending = .ok b ∧
      (b = true ↔ OnCycle (OpenEdge unresolved edges) start) := by
  induction fuel generalizing visited pending with
  | zero => omega
  | succ fuel ih =>
    rcases pending with _ | ⟨b, pending⟩
    · refine ⟨false, rfl, iff_of_false Bool.false_ne_true fun hc => ?_⟩
      -- nothing is pending, so everything `start` reaches has been visited
      have hvis : ∀ x, x = start ∨ x ∈ visited → ∀ y, OpenEdge unresolved edges x y →
          y ∈ visited := fun x hx y hy => (hinv.frontier x hx y hy).resolve_right not_mem_nil
      exact hinv.start_not_mem (mem_of_transGen (hvis start (Or.inl rfl))
        (fun x y hx => hvis x (Or.inr hx) y) hc)
    · rw [length_cons] at hfuel
      rw [cycleLoop]
      by_cases hs : b = start
      · rw [if_pos hs]
        exact ⟨true, rfl, iff_of_true rfl (hs ▸ hinv.reached b mem_cons_self)⟩
      · rw [if_neg hs]
        by_cases hv : b ∈ visited
        · rw [if_pos hv]
          exact ih (hinv.skip hv) (by omega)
        · rw [if_neg hv]
          refine ih (hinv.visit hs) ?_
          have hpaid := unvisitedEdges_insert edges hv
          have hle : ((consumersOf edges b).filter fun next => decide (next ∈ unresolved)).length ≤
              (consumersOf edges b).length := length_filter_le _ _
          rw [List.length_append, length_reverse]
          omega

theorem participatesInCycle_spec (start : α) (unresolved : OrdSet α)
    (edges : OrdMap α (OrdSet α)) : ∃ b, participatesInCycle start unresolved edges = .ok b ∧
      (b = true ↔ OnCycle (OpenEdge unresolved edges) start) := by
  rw [participatesInCycle]
  refine cycleLoop_spec _ ⟨fun x hx => TransGen.single (mem_pushed.1 hx), OrdSet.not_mem_empty _,
    fun x hx y hy => ?_⟩ ?_
  · obtain rfl : x = start := hx.resolve_right (OrdSet.not_mem_empty _)
    exact Or.inr (mem_pushed.2 hy)
  · have hle : ((consumersOf edges start).filter fun b => decide (b ∈ unresolved)).length ≤
        (consumersOf edges start).length := length_filter_le _ _
    rw [unvisitedEdges_empty, length_reverse]
    omega

theorem cycleMembers_spec (unresolved : OrdSet α) (edges : OrdMap α (OrdSet α)) (l : List α) :
    ∃ members, cycleMembers unresolved edges l = .ok members ∧ members.Sublist l ∧
      ∀ b, b ∈ members ↔ b ∈ l ∧ OnCycle (OpenEdge unresolved edges) b := by
  induction l with
  | nil => exact ⟨[], rfl, List.Sublist.slnil, by simp⟩
  | cons a l ih =>
    obtain ⟨keep, hkeep, hiff⟩ := participatesInCycle_spec a unresolved edges
    obtain ⟨members, hrun, hsub, hmem⟩ := ih
    refine ⟨if keep then a :: members else members, ?_, ?_, fun b => ?_⟩
    · simp only [cycleMembers, hkeep, hrun]
      rfl
    · cases keep
      · exact hsub.cons a
      · exact hsub.cons_cons a
    · have hb : b = a → (keep = true ↔ OnCycle (OpenEdge unresolved edges) b) := by
        rintro rfl
        exact hiff
      cases keep
      · simp only [Bool.false_eq_true, if_false, mem_cons, hmem] at hb ⊢
        tauto
      · simp only [if_true, mem_cons, hmem] at hb ⊢
        tauto

end

/-! ## `topological_order` orders an acyclic graph and reports the cycles of any other -/

/-- A complete order lists every bundle once, with the providers of a bundle before it. -/
structure ProviderOrder (desired : OrdSet α) (edge : α → α → Prop) (order : List α) : Prop where
  perm : order.Perm desired.toList
  before : ∀ l₁ c l₂, order = l₁ ++ c :: l₂ → ∀ p, edge p c → p ∈ l₁

variable {edge : α → α → Prop}

theorem ProviderOrder.mem_take (h : ProviderOrder desired edge order) (he : edge p c) {k : ℕ}
    (hc : c ∈ order.take k) : p ∈ order.take k := by
  obtain ⟨l₁, l₂, hl⟩ := append_of_mem hc
  have horder : order = l₁ ++ c :: (l₂ ++ order.drop k) := by
    conv_lhs => rw [← take_append_drop k order, hl]
    simp
  rw [hl]
  exact mem_append_left _ (h.before l₁ c _ horder p he)

/-- The result of `topological_order` on a graph with the given edges. -/
def OrderedOrCyclic (desired : OrdSet α) (edge : α → α → Prop) : List α × Option (List α) → Prop
  | (order, none) => (∀ b, ¬ OnCycle edge b) ∧ ProviderOrder desired edge order
  | (order, some cycle) => order = [] ∧ cycle ≠ [] ∧ cycle.Pairwise (· < ·) ∧
      ∀ b, b ∈ cycle ↔ OnCycle edge b

theorem not_onCycle_of_before
    (hnodup : order.Nodup) (hbefore : ∀ l₁ c l₂, order = l₁ ++ c :: l₂ → ∀ p, edge p c → p ∈ l₁)
    {b : α} (hb : b ∈ order) : ¬ OnCycle edge b := by
  refine not_onCycle_of_rank (P := (· ∈ order)) (fun x => order.idxOf x) (fun p c hpc hc => ?_) hb
  obtain ⟨l₁, l₂, hl⟩ := append_of_mem hc
  have hp : p ∈ l₁ := hbefore l₁ c l₂ hl p hpc
  have hc₁ : c ∉ l₁ := by
    rw [hl] at hnodup
    exact fun h => (nodup_append.1 hnodup).2.2 c h c mem_cons_self rfl
  subst hl
  refine ⟨mem_append_left _ hp, ?_⟩
  rw [idxOf_append_of_mem hp, idxOf_append_of_notMem hc₁]
  exact (idxOf_lt_length_iff.2 hp).trans_le (Nat.le_add_right _ _)

variable {st : OrderState α}

section

variable (hprov : ∀ p c, Edge edges p c → p ∈ desired)

include hprov

theorem OrderInv.exists_open_provider (hinv : OrderInv desired edges st)
    (hempty : ∀ c, c ∉ st.ready) {c : α} (hc : c ∈ desired)
    (hco : c ∉ st.order) : ∃ p, p ∈ desired ∧ p ∉ st.order ∧ Edge edges p c := by
  by_contra hno
  have hall : ∀ p, Edge edges p c → p ∈ st.order := by
    intro p hp
    by_contra hpo
    exact hno ⟨p, hprov p c hp, hpo, hp⟩
  exact hempty c ((hinv.ready c).2 ⟨hc, hco, openProviders_eq_zero_iff.2 hall⟩)

theorem OrderInv.exists_onCycle (hinv : OrderInv desired edges st) (hempty : ∀ c, c ∉ st.ready)
    (hlen : st.order.length ≠ desired.length) : ∃ b, OnCycle (Edge edges) b := by
  have hleft : ∃ c, c ∈ desired ∧ c ∉ st.order := by
    by_contra hno
    have hsub : ∀ c ∈ desired.toList, c ∈ st.order := by
      intro c hc
      by_contra hco
      exact hno ⟨c, hc, hco⟩
    exact hlen (le_antisymm (OrdSet.length_le_of_nodup hinv.nodup hinv.mem_desired)
      (subperm_of_subset desired.nodup hsub).length_le)
  obtain ⟨b, -, hb⟩ := exists_onCycle_of_forall_pred (r := Edge edges)
    (s := {c | c ∈ desired ∧ c ∉ st.order})
    (desired.toList.finite_toSet.subset fun c hc => hc.1) hleft (by
      rintro c ⟨hc, hco⟩
      obtain ⟨p, hp, hpo, hpc⟩ := hinv.exists_open_provider hprov hempty hc hco
      exact ⟨p, ⟨hp, hpo⟩, hpc⟩)
  exact ⟨b, hb⟩

theorem topologicalOrder_spec (hcons : ∀ p c, Edge edges p c → c ∈ desired) :
    ∃ result, topologicalOrder desired edges = .ok result ∧
      OrderedOrCyclic desired (Edge edges) result := by
  obtain ⟨st, hloop, hinv, hempty⟩ := orderLoop_spec hcons (desired.length + 1)
    (orderInv_initial hcons) (by simp)
  have hacyclic : ∀ b ∈ st.order, ¬ OnCycle (Edge edges) b := fun b =>
    not_onCycle_of_before hinv.nodup hinv.before
  have hdesired : ∀ b, OnCycle (Edge edges) b → b ∈ desired := by
    intro b hb
    obtain ⟨p, -, hpb⟩ := TransGen.tail'_iff.1 hb
    exact hcons p b hpb
  by_cases hlen : st.order.length = desired.length
  · have hperm := (subperm_of_subset hinv.nodup hinv.mem_desired).perm_of_length_le hlen.ge
    refine ⟨(st.order, none), ?_, ?_, hperm, hinv.before⟩
    · simp only [topologicalOrder, hloop]
      exact if_pos hlen
    · intro b hb
      exact hacyclic b (hperm.mem_iff.2 (hdesired b hb)) hb
  · let unresolved := desired.diff (OrdSet.ofList st.order)
    have hun : ∀ b, OnCycle (Edge edges) b → b ∈ unresolved := by
      intro b hb
      have hbo : b ∉ st.order := fun hbo => hacyclic b hbo hb
      simp [unresolved, hdesired b hb, hbo]
    obtain ⟨members, hrun, hsub, hmem⟩ := cycleMembers_spec unresolved edges unresolved.toList
    -- a bundle on a cycle is never ordered, so the search inside `unresolved` misses nothing
    have hcyc : ∀ b, b ∈ members ↔ OnCycle (Edge edges) b := by
      intro b
      rw [hmem]
      exact ⟨fun h => h.2.mono fun _ _ he => he.1, fun hb => ⟨hun b hb, hb.restrict hun⟩⟩
    refine ⟨([], some members), ?_, rfl, ?_, unresolved.sorted.sublist hsub, hcyc⟩
    · simp only [topologicalOrder, hloop]
      refine (if_neg hlen).trans ?_
      rw [hrun]
      rfl
    · obtain ⟨b, hb⟩ := hinv.exists_onCycle hprov hempty hlen
      exact ne_nil_of_mem ((hcyc b).2 hb)

end

end Gadgetron.Bundle
