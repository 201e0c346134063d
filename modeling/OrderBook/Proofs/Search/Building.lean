import OrderBook.Proofs.Search.PassStates

/-!
Which passes can be built. Every item of the root is compared with every item of the pool, so a pass
is built exactly if none of these comparisons fails.
-/

namespace OrderBook

/-- That every comparison of an item of an order with one of the root comes to an answer. -/
def Decided (chain : PolicyChain) (root r : ResolvedOrder) : Prop :=
  ∀ a ∈ root.items, ∀ b ∈ r.items, ∃ yes, chain.mutualMatch a b = .ok yes

theorem OrderNodes.Represents.mem_items {c : OrderNodes} {g : OrderGraph} {r : ResolvedOrder}
    (p : c.Represents g r) {i : OrderItem} :
    i ∈ r.items ↔ ∃ n ∈ c.nodes, (g.node? n).map (·.data) = some i := by
  have hmem : some i ∈ c.nodes.map (fun n => (g.node? n).map (·.data)) ↔ some i ∈ r.items.map some := by
    rw [p.payloads]
  simpa using hmem.symm

theorem FlowPass.Layout.exists_candidate {root r : ResolvedOrder} {pool : List ResolvedOrder}
    {g : OrderGraph} {rootNodes : OrderNodes} {candidates : List OrderNodes}
    (l : Layout root pool g rootNodes candidates) (hr : r ∈ pool) :
    ∃ c ∈ candidates, c.Represents g r := by
  obtain ⟨j, hj, rfl⟩ := List.getElem_of_mem hr
  have hc := List.getElem?_eq_getElem (l.length_eq ▸ hj : j < candidates.length)
  obtain ⟨r', hr', hrep⟩ := l.candidate hc
  cases (List.getElem?_eq_getElem hj).symm.trans hr'
  exact ⟨_, List.mem_of_getElem? hc, hrep⟩

namespace FlowPass

variable {chain : PolicyChain} {root : ResolvedOrder} {pool : List ResolvedOrder} {g h : OrderGraph}

def PairDecided (chain : PolicyChain) (g : OrderGraph) (x : Nat × Nat) : Prop :=
  ∀ a b, (g.node? x.1).map (·.data) = some a → (g.node? x.2).map (·.data) = some b →
    ∃ yes, chain.mutualMatch a b = .ok yes

theorem linkPair_isOk (x : Nat × Nat) :
    (∃ h, linkPair chain g x.1 x.2 = .ok h) ↔ PairDecided chain g x := by
  rw [linkPair, PairDecided]
  cases g.node? x.1 with
  | none => simp [pure_eq_ok]
  | some a =>
    cases g.node? x.2 with
    | none => simp [pure_eq_ok]
    | some b =>
      simp only [Option.map_some, Option.some.injEq]
      constructor
      · rintro ⟨h, hok⟩ _ _ rfl rfl
        obtain ⟨yes, hyes, -⟩ := bind_eq_ok.1 hok
        exact ⟨yes, hyes⟩
      · intro hdecided
        obtain ⟨yes, hyes⟩ := hdecided _ _ rfl rfl
        rw [hyes]
        cases yes with
        | true => exact ⟨_, rfl⟩
        | false => exact ⟨_, rfl⟩

theorem sameFrame_linkPair {x : Nat × Nat} (hok : linkPair chain g x.1 x.2 = .ok h) :
    FlowGraph.SameFrame g h := by
  obtain ⟨-, rfl⟩ | ⟨-, rfl⟩ := linkPair_cases hok
  · exact FlowGraph.sameFrame_link _ _ _
  · exact FlowGraph.SameFrame.refl _

theorem linkAll_isOk (sources targets : List Nat) :
    (∃ h, linkAll chain g sources targets = .ok h) ↔
      ∀ x ∈ pairs sources targets, PairDecided chain g x := by
  rw [linkAll_eq]
  refine foldlM_isOk_iff (P := FlowGraph.SameFrame g) (fun x i hframe => ?_)
    (fun hframe hok => hframe.trans (sameFrame_linkPair hok)) _ (FlowGraph.SameFrame.refl g)
  rw [linkPair_isOk, PairDecided, PairDecided]
  simp only [hframe.payload]

theorem build_isOk : (∃ p, build chain root pool = .ok p) ↔ ∀ r ∈ pool, Decided chain root r := by
  obtain ⟨hlayout, -, -⟩ := layout_insertAll root pool
  have hbuild : (∃ p, build chain root pool = .ok p) ↔ ∃ h, linkAll chain
      (insertAll (OrderNodes.insert .empty root).1 pool).1 (OrderNodes.insert .empty root).2.nodes
      ((insertAll (OrderNodes.insert .empty root).1 pool).2.flatMap (·.nodes)) = .ok h := by
    constructor
    · rintro ⟨p, hp⟩
      obtain ⟨graph, hgraph, -⟩ := bind_eq_ok.1 hp
      exact ⟨graph, hgraph⟩
    · rintro ⟨graph, hgraph⟩
      exact ⟨_, bind_eq_ok.2 ⟨graph, hgraph, rfl⟩⟩
  rw [hbuild, linkAll_isOk]
  constructor
  · intro hpairs r hr a ha b hb
    obtain ⟨c, hc, hrep⟩ := hlayout.exists_candidate hr
    obtain ⟨source, hsource, ha⟩ := hlayout.root.mem_items.1 ha
    obtain ⟨target, htarget, hb⟩ := hrep.mem_items.1 hb
    have htargets := List.mem_flatMap.2 ⟨c, hc, htarget⟩
    exact hpairs (source, target) (mem_pairs.2 ⟨hsource, htargets⟩) a b ha hb
  · intro hpool x hx a b ha hb
    obtain ⟨hsource, htarget⟩ := mem_pairs.1 hx
    obtain ⟨c, hc, htarget⟩ := List.mem_flatMap.1 htarget
    obtain ⟨j, hj⟩ := List.mem_iff_getElem?.1 hc
    obtain ⟨r, hr, hrep⟩ := hlayout.candidate hj
    have ha := hlayout.root.mem_items.2 ⟨_, hsource, ha⟩
    have hb := hrep.mem_items.2 ⟨_, htarget, hb⟩
    exact hpool r (List.mem_of_getElem? hr) a ha b hb

end FlowPass

end OrderBook
