import OrderBook.Proofs.Price.Crossing
import OrderBook.Proofs.Results
import OrderBook.Search.FlowPass
import OrderBook.Search.OneToOne

/-!
Where errors come from. Prices fail by arithmetic, by two orders on one side, or by spreads too far
apart; solving for a crossing does not fail otherwise. Of these only the last is fatal, so it is the
only one that gets past a policy, a candidate or a round of a pass. The lemmas are about any kind of
errors that has those that can come about in it.
-/

namespace OrderBook

/-- The one error of prices that is fatal. -/
def MatchError.IsApart (e : MatchError) : Prop := e = .spreadsTooFarApart

theorem MatchError.isApart_self : MatchError.IsApart .spreadsTooFarApart := rfl

/-- The errors that are of a kind unless something recovers from them. -/
def MatchError.IfFatal (kind : MatchError → Prop) (e : MatchError) : Prop :=
  e.isFatal = true → kind e

class Arithmetical (kind : MatchError → Prop) : Prop where
  arithmetic (step : PriceStep) : kind (.arithmetic step)

class Spreading (kind : MatchError → Prop) : Prop where
  delta : kind (.arithmetic .delta)
  interpolation : kind (.arithmetic .interpolation)
  spread : kind (.arithmetic .spread)

instance {kind : MatchError → Prop} [Arithmetical kind] : Spreading kind where
  delta := Arithmetical.arithmetic _
  interpolation := Arithmetical.arithmetic _
  spread := Arithmetical.arithmetic _

/-- A kind of errors with those of prices in it, the fatal one apart. -/
class Priced (kind : MatchError → Prop) : Prop extends Arithmetical kind where
  sameSide (a b : String) : kind (.sameSide a b)

def MatchError.IsCurve (e : MatchError) : Prop :=
  e = .spreadsTooFarApart ∨ ∃ step, e = .arithmetic step

instance : Arithmetical MatchError.IsCurve := ⟨fun step => .inr ⟨step, rfl⟩⟩

instance {kind : MatchError → Prop} : Priced (MatchError.IfFatal kind) where
  arithmetic _ h := by cases h
  sameSide _ _ h := by cases h

variable {kind : MatchError → Prop}

/-! Prices -/

namespace PriceCurve

theorem failsOnly_orFail_of {step : PriceStep} (h : kind (.arithmetic step)) (x : Option Decimal) :
    FailsOnly kind (orFail step x) := by
  cases x with
  | none => exact .error h
  | some d => exact .ok d

section

variable [Spreading kind]

theorem failsOnly_valueAt (c : PriceCurve) (t : UInt64) : FailsOnly kind (c.valueAt t) := by
  rw [valueAt]
  split
  · exact .ok _
  · split
    · exact .ok _
    · exact .bind (failsOnly_orFail_of Spreading.delta _) fun _ _ =>
        failsOnly_orFail_of Spreading.interpolation _

theorem failsOnly_spread (bid ask : PriceCurve) (t : UInt64) :
    FailsOnly kind (spread bid ask t) :=
  .bind (failsOnly_valueAt _ _) fun _ _ =>
    .bind (failsOnly_valueAt _ _) fun _ _ => failsOnly_orFail_of Spreading.spread _

end

section

variable [Arithmetical kind]

theorem failsOnly_orFail (step : PriceStep) (x : Option Decimal) :
    FailsOnly kind (orFail step x) :=
  failsOnly_orFail_of (Arithmetical.arithmetic step) x

theorem failsOnly_perItem (c : PriceCurve) (n : UInt32) : FailsOnly kind (c.perItem n) := by
  rw [perItem]
  split
  · exact .error (Arithmetical.arithmetic _)
  · exact .bind (failsOnly_orFail _ _) fun _ _ => .bind (failsOnly_orFail _ _) fun _ _ => .pure _

theorem failsOnly_sum? (curves : List PriceCurve) : FailsOnly kind (sum? curves) := by
  cases curves with
  | nil => exact .ok none
  | cons c cs =>
    rw [sum?]
    dsimp only
    split
    · exact .ok none
    · refine .bind (.foldlM (fun total d => ?_) _ _) fun _ _ => .pure _
      refine .bind (failsOnly_valueAt _ _) fun _ _ => .bind (failsOnly_orFail _ _) fun _ _ => ?_
      exact .bind (failsOnly_valueAt _ _) fun _ _ => .bind (failsOnly_orFail _ _) fun _ _ => .pure _

end

section

variable {bid ask : PriceCurve} {start stop : UInt64} {d0 d1 : Decimal}

section

variable (hspan : start ≤ stop) (hopposite : d0.Opposite d1)
  (h : d0.sub? d1 = none → kind .spreadsTooFarApart)

include hspan hopposite h

theorem failsOnly_crossing : FailsOnly kind (crossing start stop d0 d1) := by
  cases hsub : d0.sub? d1 with
  | none =>
    rw [crossing_eq_apart hsub]
    exact .error (h hsub)
  | some change =>
    obtain ⟨t, ht, -⟩ := exists_crossing hspan hopposite hsub
    rw [ht]
    exact .ok t

theorem failsOnly_lastValid [Spreading kind] :
    FailsOnly kind (lastValid bid ask start stop d0 d1) := by
  refine .bind (failsOnly_crossing hspan hopposite h) fun t ht => ?_
  obtain ⟨n, hn, -⟩ := exists_floorMillis (between_crossing hspan hopposite ht)
  dsimp only
  rw [hn]
  refine .bind (.ok n) fun _ _ => .bind (failsOnly_spread _ _ _) fun _ _ => ?_
  split <;> exact .pure _

theorem failsOnly_firstValid? [Spreading kind] :
    FailsOnly kind (firstValid? bid ask start stop d0 d1) := by
  have checked : ∀ first : UInt64, FailsOnly kind (do
      if stop < first then return none
      if (← spread bid ask first) < .zero then return none
      return some first) := by
    intro first
    split
    · exact .pure none
    · refine .bind (failsOnly_spread _ _ _) fun _ _ => ?_
      split <;> exact .pure _
  refine .bind (failsOnly_crossing hspan hopposite h) fun t ht => ?_
  obtain ⟨n, hn, -⟩ := exists_ceilMillis (between_crossing hspan hopposite ht)
  rw [hn]
  exact .bind (.ok n) fun _ _ => .bind (failsOnly_spread _ _ _) fun _ _ => checked _

end

section

variable [Spreading kind] (h : SpreadsApart bid ask → kind .spreadsTooFarApart)

include h

theorem failsOnly_validInterval? : FailsOnly kind (validInterval? bid ask) := by
  unfold validInterval?
  dsimp only
  split
  · exact .ok _
  · rename_i hspan
    have hspan := UInt64.not_lt.1 hspan
    refine .bind (failsOnly_spread _ _ _) fun d0 hd0 => ?_
    refine .bind (failsOnly_spread _ _ _) fun d1 hd1 => ?_
    split
    · rename_i hfirst
      split
      · exact .pure _
      · rename_i hlast
        have hopposite : d0.Opposite d1 := .inl ⟨hfirst, Decimal.not_le.1 hlast⟩
        refine .bind (failsOnly_lastValid hspan hopposite fun hsub => ?_) fun _ _ => .pure _
        exact h ⟨hspan, d0, d1, hd0, hd1, hopposite, hsub⟩
    · rename_i hfirst
      split
      · rename_i hlast
        have hopposite : d0.Opposite d1 := .inr ⟨Decimal.not_le.1 hfirst, hlast⟩
        refine .bind (failsOnly_firstValid? hspan hopposite fun hsub => ?_) fun _ _ => .pure _
        exact h ⟨hspan, d0, d1, hd0, hd1, hopposite, hsub⟩
      · exact .pure _

theorem failsOnly_intersect : FailsOnly kind (intersect bid ask) := by
  refine .bind (failsOnly_validInterval? h) fun window _ => ?_
  split
  · exact .pure _
  · exact .bind (failsOnly_valueAt _ _) fun _ _ => .bind (failsOnly_valueAt _ _) fun _ _ => .pure _

end

end

end PriceCurve

theorem PriceIntersection.failsOnly_resolve [Arithmetical kind] (x : PriceIntersection)
    (now : UInt64) : FailsOnly kind (x.resolve now) := by
  rw [resolve]
  split
  · exact .ok _
  · refine .bind ?_ fun _ _ => .pure _
    rw [priceAt]
    split
    · exact .ok _
    · exact .bind (PriceCurve.failsOnly_valueAt _ _) fun _ _ =>
        .bind (PriceCurve.failsOnly_valueAt _ _) fun _ _ => .pure _

theorem Order.failsOnly_intersection [Priced kind] {a b : Order}
    (h : a.Apart b → kind .spreadsTooFarApart) : FailsOnly kind (a.intersection b) := by
  rw [Apart] at h
  rw [intersection]
  split
  · rename_i ha hb
    rw [ha, hb] at h
    exact PriceCurve.failsOnly_intersect h
  · rename_i ha hb
    rw [ha, hb] at h
    exact PriceCurve.failsOnly_intersect h
  · exact .error (Priced.sameSide _ _)

theorem Order.failsOnly_combinedIntersection [Priced kind] (h : kind .spreadsTooFarApart)
    (root : Order) (opposing : List Order) :
    FailsOnly kind (root.combinedIntersection opposing) := by
  rw [combinedIntersection]
  split
  · exact .error (Priced.sameSide _ _)
  · refine .bind (PriceCurve.failsOnly_sum? _) fun combined _ => ?_
    split
    · exact .pure _
    · split <;> exact PriceCurve.failsOnly_intersect fun _ => h

theorem OrderItem.failsOnly_intersection [Priced kind] {a b : OrderItem}
    (h : a.Apart b → kind .spreadsTooFarApart) : FailsOnly kind (a.intersection b) := by
  rw [intersection]
  split
  · rename_i ha hb
    refine .bind (PriceCurve.failsOnly_perItem _ _) fun p hp => ?_
    refine .bind (PriceCurve.failsOnly_perItem _ _) fun q hq => ?_
    refine PriceCurve.failsOnly_intersect fun hapart => h ⟨p, q, hp, hq, ?_⟩
    rw [ha, hb]
    exact hapart
  · rename_i ha hb
    refine .bind (PriceCurve.failsOnly_perItem _ _) fun q hq => ?_
    refine .bind (PriceCurve.failsOnly_perItem _ _) fun p hp => ?_
    refine PriceCurve.failsOnly_intersect fun hapart => h ⟨p, q, hp, hq, ?_⟩
    rw [ha, hb]
    exact hapart
  · exact .error (Priced.sameSide _ _)

/-! What gets past -/

theorem failsOnly_forgive {α : Type} {x : Result (Option α)}
    (h : FailsOnly (MatchError.IfFatal kind) x) : FailsOnly kind x.forgive := by
  cases x with
  | ok a => exact .ok a
  | error e =>
    unfold Result.forgive
    dsimp only
    split
    · rename_i hf
      exact .error (h e rfl hf)
    · exact .ok none

section

variable {item candidate : OrderItem} (h : item.Apart candidate → kind .spreadsTooFarApart)

include h

theorem Policy.failsOnly_check (p : Policy) : FailsOnly kind (p.check item candidate) := by
  cases p with
  | price =>
    show FailsOnly kind (priceMismatch? item candidate)
    have hprice : FailsOnly (MatchError.IfFatal kind) (item.intersection candidate) :=
      OrderItem.failsOnly_intersection fun hapart _ => h hapart
    rw [priceMismatch?]
    cases hx : item.intersection candidate with
    | ok x => cases x <;> exact .ok _
    | error e =>
      dsimp only
      split
      · rename_i hf
        exact .error (hprice e hx hf)
      · exact .ok _
  | _ => exact .ok _

namespace PolicyChain

theorem failsOnly_mismatches (chain : PolicyChain) :
    FailsOnly kind (chain.mismatches item candidate) := by
  induction chain with
  | nil => exact .ok []
  | cons p ps ih =>
    exact .bind (p.failsOnly_check h) fun _ _ => .bind ih fun _ _ => .pure _

theorem failsOnly_accepts (chain : PolicyChain) : FailsOnly kind (chain.accepts item candidate) :=
  .bind (chain.failsOnly_mismatches h) fun _ _ => .pure _

theorem failsOnly_mutualMatch (chain : PolicyChain) :
    FailsOnly kind (chain.mutualMatch item candidate) := by
  refine .bind (chain.failsOnly_accepts h) fun yes _ => ?_
  split
  · exact chain.failsOnly_accepts fun hapart => h hapart.symm
  · exact .pure false

end PolicyChain

end

namespace OneToOne

section

variable {root candidate : ResolvedOrder}
  (h : ∀ a ∈ root.items, ∀ b ∈ candidate.items, a.Apart b → kind .spreadsTooFarApart)

include h

theorem failsOnly_pairing? (chain : PolicyChain) :
    FailsOnly kind (pairing? chain root candidate) := by
  refine .bind ?_ fun _ _ => .pure _
  exact .mapM _ fun a ha => .mapM _ fun b hb => chain.failsOnly_mutualMatch (h a ha b hb)

theorem failsOnly_matchCandidate
    (horders : root.order.Apart candidate.order → kind .spreadsTooFarApart) (chain : PolicyChain)
    (now : UInt64) : FailsOnly (MatchError.IfFatal kind) (matchCandidate chain root candidate now) := by
  rw [matchCandidate]
  split
  · exact .pure none
  · refine .bind (Order.failsOnly_intersection fun hapart _ => horders hapart) fun x _ => ?_
    split
    · refine .bind ((failsOnly_pairing? h chain).imp fun _ he _ => he) fun pairs _ => ?_
      split
      · refine .bind (PriceIntersection.failsOnly_resolve _ _) fun clearing _ => ?_
        split <;> exact .pure _
      · exact .pure none
    · exact .pure none

end

theorem failsOnly_search (chain : PolicyChain) (root : ResolvedOrder) (now : UInt64)
    (candidates : List ResolvedOrder) :
    FailsOnly MatchError.IsApart (search chain root now candidates) := by
  induction candidates with
  | nil => exact .ok []
  | cons c cs ih =>
    have hfirst : FailsOnly (MatchError.IfFatal MatchError.IsApart) (matchCandidate chain root c now) :=
      failsOnly_matchCandidate (fun _ _ _ _ _ => MatchError.isApart_self)
        (fun _ => MatchError.isApart_self) chain now
    exact .bind (failsOnly_forgive hfirst) fun _ _ => .bind ih fun _ _ => .pure _

end OneToOne

namespace FlowPass

theorem failsOnly_linkAll (chain : PolicyChain) (g : OrderGraph) (sources targets : List Nat) :
    FailsOnly MatchError.IsApart (linkAll chain g sources targets) := by
  refine .foldlM (fun g target => .foldlM (fun g source => ?_) _ _) _ _
  rw [linkPair]
  split
  · split
    · refine .bind (chain.failsOnly_mutualMatch fun _ => MatchError.isApart_self) fun yes _ => ?_
      split <;> exact .pure _
    · exact .pure g
  · exact .pure g

theorem failsOnly_build (chain : PolicyChain) (root : ResolvedOrder) (pool : List ResolvedOrder) :
    FailsOnly MatchError.IsApart (build chain root pool) :=
  .bind (failsOnly_linkAll chain _ _ _) fun _ _ => .pure _

theorem failsOnly_settle (p : FlowPass) (engaged : List Nat) (now : UInt64) :
    FailsOnly MatchError.IsApart (p.settle engaged now) := by
  refine .bind (failsOnly_forgive ?_) fun clearing _ => ?_
  · refine .bind (Order.failsOnly_combinedIntersection (fun _ => MatchError.isApart_self) _ _) fun x _ => ?_
    split
    · exact PriceIntersection.failsOnly_resolve _ _
    · exact .pure none
  · split <;> exact .pure _

end FlowPass

end OrderBook
