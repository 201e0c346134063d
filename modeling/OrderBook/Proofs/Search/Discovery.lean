import OrderBook.Proofs.Query.Narrowing
import OrderBook.Proofs.Search.SilentCandidates
import OrderBook.Proofs.Store.Lookup
import OrderBook.Proofs.Store.Paging

/-!
The discovery of candidates in a book. Each item of the root walks through the items that its query
matches and takes the orders of those that it accepts. The queries hide nothing that is accepted, the
walks lose nothing, and an order that is passed over as known stays known; so the orders that are not
found are silent.
-/

namespace OrderBook.Engine

variable {chain : PolicyChain} {root : String} {items candidates : List OrderItem} {item : OrderItem}
  {found after : List String}

/-- What looking through `candidates` for partners of `items` makes of the orders found before. -/
structure Discovers (chain : PolicyChain) (root : String) (items candidates : List OrderItem)
    (found after : List String) : Prop where
  nodup : found.Nodup → after.Nodup
  root_notMem : root ∉ found → root ∉ after
  subset : found ⊆ after
  /-- Whatever an item accepts is of the root or of an order that is found. -/
  complete : ∀ a ∈ items, ∀ c ∈ candidates, chain.accepts a c = .ok true →
    c.orderId = root ∨ c.orderId ∈ after

theorem Discovers.nil (candidates : List OrderItem) (found : List String) :
    Discovers chain root [] candidates found found :=
  ⟨id, id, List.Subset.refl _, by simp⟩

theorem Discovers.cons {last : List String} (h : Discovers chain root [item] candidates found after)
    (g : Discovers chain root items candidates after last) :
    Discovers chain root (item :: items) candidates found last := by
  refine ⟨g.nodup ∘ h.nodup, g.root_notMem ∘ h.root_notMem, List.Subset.trans h.subset g.subset, ?_⟩
  intro a ha c hc haccepts
  cases ha with
  | head => exact (h.complete item List.mem_cons_self c hc haccepts).imp_right fun hm => g.subset hm
  | tail _ ha => exact g.complete a ha c hc haccepts

theorem Discovers.consider {c : OrderItem} {last : List String}
    (h : Discovers chain root [item] candidates found after)
    (hok : consider chain root item after c = .ok last) :
    Discovers chain root [item] (candidates ++ [c]) found last := by
  -- Whether the order is added or not, what matters is that the new item is dealt with.
  have extend : after ⊆ last → (found.Nodup → last.Nodup) → (root ∉ found → root ∉ last) →
      (chain.accepts item c = .ok true → c.orderId = root ∨ c.orderId ∈ last) →
      Discovers chain root [item] (candidates ++ [c]) found last := by
    intro hsub hnodup hroot hnew
    refine ⟨hnodup, hroot, List.Subset.trans h.subset hsub, fun a ha d hd haccepts => ?_⟩
    rcases List.mem_append.1 hd with hd | hd
    · exact (h.complete a ha d hd haccepts).imp_right fun hm => hsub hm
    · obtain rfl := List.mem_singleton.1 hd
      obtain rfl := List.mem_singleton.1 ha
      exact hnew haccepts
  rw [Engine.consider] at hok
  split at hok
  · rename_i hknown
    obtain rfl := pure_eq_ok.1 hok
    refine extend (List.Subset.refl _) h.nodup h.root_notMem fun _ => ?_
    simpa using hknown
  · rename_i hunknown
    obtain ⟨yes, hyes, hok⟩ := bind_eq_ok.1 hok
    obtain ⟨hother, hnew⟩ : c.orderId ≠ root ∧ c.orderId ∉ after := by simpa using hunknown
    cases yes with
    | false =>
      obtain rfl := pure_eq_ok.1 hok
      refine extend (List.Subset.refl _) h.nodup h.root_notMem fun haccepts => ?_
      cases hyes.symm.trans haccepts
    | true =>
      obtain rfl := pure_eq_ok.1 hok
      refine extend (List.subset_append_left _ _) (fun hf => ?_) (fun hf => ?_) fun _ => .inr (by simp)
      · refine List.nodup_append.2 ⟨h.nodup hf, List.nodup_singleton _, ?_⟩
        intro id hid d hd e
        exact hnew (List.mem_singleton.1 hd ▸ e ▸ hid)
      · simpa using ⟨h.root_notMem hf, hother.symm⟩

theorem discovers_foldlM (h : candidates.foldlM (consider chain root item) found = .ok after) :
    Discovers chain root [item] candidates found after := by
  have start : Discovers chain root [item] [] found found :=
    ⟨id, id, List.Subset.refl _, by simp⟩
  exact foldlM_invariant (P := fun done now => Discovers chain root [item] done found now)
    (fun hd hc => hd.consider hc) candidates [] start h

/-! Discovery in a book -/

variable {b : Book} {config : MatcherConfig}

theorem Discovers.of_results {pageSize : Nat}
    (h : Discovers chain root [item] ((chain.candidateQuery item pageSize).results b.allItems)
      found after)
    (hstart : (chain.candidateQuery item pageSize).startAfter = none) :
    Discovers chain root [item] b.allItems found after := by
  refine ⟨h.nodup, h.root_notMem, h.subset, fun a ha c hc haccepts => ?_⟩
  obtain rfl := List.mem_singleton.1 ha
  refine h.complete a ha c (CandidateQuery.mem_results.2 ⟨hc, ?_⟩) haccepts
  rw [CandidateQuery.selects, Bool.and_eq_true, CandidateQuery.isAfterCursor, hstart]
  exact ⟨PolicyChain.candidateQuery_matches haccepts pageSize, rfl⟩

theorem discover_source (hids : (b.allItems.map (·.id)).Nodup) (root : String)
    (items : List OrderItem) (found : List String) :
    (discover ⟨b.source, chain, config⟩ root found items).1 =
      items.foldlM (fun found item =>
        ((chain.candidateQuery item config.pageSize).results b.allItems).foldlM
          (consider chain root item) found) found := by
  induction items generalizing found with
  | nil => rfl
  | cons item items ih =>
    obtain ⟨hwalk, hfailure⟩ :=
      Book.walk_source hids (chain.candidateQuery item config.pageSize) config.pageSize
    simp only [discover, hwalk, hfailure, List.foldlM_cons]
    split
    · rename_i e he
      rw [he]
      rfl
    · rename_i next hnext
      rw [hnext, ih]
      rfl

theorem discovers_discover (hids : (b.allItems.map (·.id)).Nodup)
    (h : (discover ⟨b.source, chain, config⟩ root found items).1 = .ok after) :
    Discovers chain root items b.allItems found after := by
  rw [discover_source hids] at h
  induction items generalizing found with
  | nil =>
    cases h
    exact .nil b.allItems _
  | cons item items ih =>
    obtain ⟨next, hnext, h⟩ := bind_eq_ok.1 h
    refine Discovers.cons ?_ (ih h)
    exact (discovers_foldlM hnext).of_results (PolicyChain.startAfter_candidateQuery chain item _)

/-- The candidates found in a book are the other orders that are known, each once, and an order that
is not known is silent. -/
theorem findCandidates_source {r : ResolvedOrder} {cs : List ResolvedOrder}
    (hids : (b.allItems.map (·.id)).Nodup)
    (hown : ∀ x ∈ b.orders.entries, ∀ i ∈ x.items, i.orderId = x.id)
    (h : (findCandidates ⟨b.source, chain, config⟩ r).1 = .ok cs) :
    ∃ known : ResolvedOrder → Bool,
      cs.Perm ((b.orders.entries.filter fun x => x.id ≠ r.id).filter known) ∧
        ∀ x ∈ b.orders.entries, x.id ≠ r.id → known x = false → Silent chain r x := by
  obtain ⟨ids, hdiscover, hresolve⟩ := bind_eq_ok.1 h
  have hd := discovers_discover hids hdiscover
  rw [Book.resolveAll_source] at hresolve
  obtain rfl := Except.ok.inj hresolve
  refine ⟨fun x => ids.contains x.id, ?_, fun x hx hother hunknown a ha c hc => ?_⟩
  · refine (List.perm_ext_iff_of_nodup ?_ ((b.nodup_entries.filter _).filter _)).2 fun x => ?_
    · refine (hd.nodup List.nodup_nil).filterMap fun id id' y hy hy' => ?_
      exact (Book.find?_eq_some.1 hy).2.symm.trans (Book.find?_eq_some.1 hy').2
    · rw [List.mem_filterMap, List.mem_filter, List.mem_filter, List.contains_iff_mem]
      constructor
      · intro ⟨id, hid, hx⟩
        obtain ⟨hmem, rfl⟩ := Book.find?_eq_some.1 hx
        have hne : x.id ≠ r.id := fun e => hd.root_notMem List.not_mem_nil (e ▸ hid)
        exact ⟨⟨hmem, decide_eq_true hne⟩, hid⟩
      · intro ⟨⟨hmem, _⟩, hid⟩
        exact ⟨x.id, hid, Book.find?_eq_some.2 ⟨hmem, rfl⟩⟩
  · cases hagree : chain.agrees a c with
    | false => rfl
    | true =>
      have hm : c ∈ b.allItems := List.mem_flatMap.2 ⟨x, hx, hc⟩
      have hfound := hd.complete a ha c hm (PolicyChain.accepts_of_agrees hagree)
      rw [hown x hx c hc] at hfound
      have hid := hfound.resolve_left hother
      exact absurd hid (by simpa using hunknown)

end OrderBook.Engine
