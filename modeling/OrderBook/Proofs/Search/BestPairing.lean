import Mathlib.Data.List.Perm.Subperm
import OrderBook.Search.Pairing

/-!
Which pairing a search settles on. Depth first, of two pairings the one comes first that takes the lower
opposing item for the first root item for which they differ, and leaving a root item out comes after all
choices for it. The search passes over pairings when the rows to come are too few, when the cap is
reached and when the target is reached; those are never longer than the best one so far, so the first of
the longest pairings is the one that is kept.
-/

namespace OrderBook

namespace Pairing

/-- A pairing that a table of compatibility allows. -/
structure Allowed (rows : List (List Bool)) (p : Pairing) : Prop where
  ascending : p.Pairwise fun x y => x.1 < y.1
  distinct : (p.map (·.2)).Nodup
  compatible : ∀ x ∈ p, ∃ row, rows[x.1]? = some row ∧ row[x.2]? = some true

variable {rows all : List (List Bool)} {row : List Bool} {p path best : Pairing} {i j : Nat}

theorem allowed_nil : Allowed rows [] := ⟨.nil, List.nodup_nil, fun _ h => by cases h⟩

theorem Allowed.concat (h : Allowed rows p) (hbefore : ∀ x ∈ p, x.1 < i)
    (hfree : ∀ x ∈ p, x.2 ≠ j) (hrow : rows[i]? = some row) (hj : row[j]? = some true) :
    Allowed rows (p ++ [(i, j)]) := by
  refine ⟨?_, ?_, ?_⟩
  · refine List.pairwise_append.2 ⟨h.ascending, List.pairwise_singleton _ _, ?_⟩
    intro x hx y hy
    rw [List.mem_singleton.1 hy]
    exact hbefore x hx
  · rw [List.map_append, List.map_singleton]
    refine List.nodup_append.2 ⟨h.distinct, List.pairwise_singleton _ _, ?_⟩
    intro k hk l hl
    obtain ⟨x, hx, rfl⟩ := List.mem_map.1 hk
    rw [List.mem_singleton.1 hl]
    exact hfree x hx
  · intro x hx
    rcases List.mem_append.1 hx with hx | hx
    · exact h.compatible x hx
    · rw [List.mem_singleton.1 hx]
      exact ⟨row, hrow, hj⟩

theorem nodup_of_ascending (h : p.Pairwise fun x y => x.1 < y.1) : (p.map (·.1)).Nodup :=
  List.pairwise_map.2 (h.imp fun hlt => Nat.ne_of_lt hlt)

theorem length_le_of_ascending {n : Nat} (h : p.Pairwise fun x y => x.1 < y.1)
    (hlt : ∀ x ∈ p, x.1 < n) : p.length ≤ n := by
  have hsubset : p.map (·.1) ⊆ List.range n := by
    intro i hi
    obtain ⟨x, hx, rfl⟩ := List.mem_map.1 hi
    exact List.mem_range.2 (hlt x hx)
  have hle := (List.subperm_of_subset (nodup_of_ascending h) hsubset).length_le
  rwa [List.length_map, List.length_range] at hle

theorem mem_choices : j ∈ choices row path ↔ row[j]? = some true ∧ ∀ x ∈ path, x.2 ≠ j := by
  rw [choices, List.mem_filter, List.mem_range, Bool.and_eq_true, claims, Bool.not_eq_true',
    List.any_eq_false, List.getD_eq_getElem?_getD]
  constructor
  · rintro ⟨hlt, hcompatible, hfree⟩
    rw [List.getElem?_eq_getElem hlt] at hcompatible ⊢
    exact ⟨congrArg some hcompatible, fun x hx => by simpa using hfree x hx⟩
  · rintro ⟨hcompatible, hfree⟩
    refine ⟨(List.getElem?_eq_some_iff.1 hcompatible).1, by rw [hcompatible]; rfl, ?_⟩
    exact fun x hx => by simpa using hfree x hx

/-! The order of the search -/

def partner? (p : Pairing) (i : Nat) : Option Nat := (p.find? fun x => x.1 == i).map (·.2)

/-- Which choice for a root item is tried first: a lower opposing item before a higher one, and leaving
the root item out after all of them. -/
def Sooner : Option Nat → Option Nat → Prop
  | some j, some k => j < k
  | some _, none => True
  | none, _ => False

/-- Of two pairings, the one that chooses sooner for the first root item for which they differ. -/
def Before (p q : Pairing) : Prop :=
  ∃ i, (∀ k < i, p.partner? k = q.partner? k) ∧ Sooner (p.partner? i) (q.partner? i)

theorem partner?_append (p q : Pairing) (i : Nat) :
    (p ++ q).partner? i = (p.partner? i).or (q.partner? i) := by
  rw [partner?, List.find?_append, Option.map_or]
  rfl

theorem partner?_eq_none (h : ∀ x ∈ p, x.1 ≠ i) : p.partner? i = none := by
  rw [partner?, Option.map_eq_none_iff, List.find?_eq_none]
  exact fun x hx => by simpa using h x hx

theorem partner?_cons_self (i j : Nat) (p : Pairing) : partner? ((i, j) :: p) i = some j := by
  simp [partner?]

theorem Before.asymm {q : Pairing} (h : p.Before q) (g : q.Before p) : False := by
  obtain ⟨i, hsame, hi⟩ := h
  obtain ⟨k, hsame', hk⟩ := g
  have hirrefl : ∀ x : Option Nat, ¬ Sooner x x := by
    rintro (_ | j) hx
    · exact hx
    · exact Nat.lt_irrefl j hx
  have hasymm : ∀ x y : Option Nat, Sooner x y → ¬ Sooner y x := by
    rintro (_ | j) (_ | l) hx hy
    · exact hx
    · exact hx
    · exact hy
    · exact Nat.lt_asymm hx hy
  rcases Nat.lt_trichotomy i k with hlt | rfl | hlt
  · rw [hsame' i hlt] at hi
    exact hirrefl _ hi
  · exact hasymm _ _ hi hk
  · rw [hsame k hlt] at hk
    exact hirrefl _ hk

def Bounds.Within (b : Bounds) (size : Nat) : Prop := ∀ c ∈ b.cap, size ≤ c

theorem Bounds.allows_iff {b : Bounds} {size : Nat} :
    b.allows size = true ↔ b.Within (size + 1) := by
  cases hcap : b.cap with
  | none => simp [allows, Within, hcap]
  | some c =>
    simp only [allows, Within, hcap, Option.mem_some_iff, forall_eq', Option.all_some, decide_eq_true_eq]
    exact Nat.lt_iff_add_one_le

theorem Bounds.Within.of_le {b : Bounds} {size less : Nat} (h : b.Within size) (hle : less ≤ size) :
    b.Within less :=
  fun c hc => Nat.le_trans hle (h c hc)

/-- A path that the search has taken through the rows before `i`, the latest pair first. -/
structure Path (b : Bounds) (all : List (List Bool)) (i : Nat) (path : Pairing) : Prop where
  allowed : Allowed all path.reverse
  within : b.Within path.length
  before : ∀ x ∈ path, x.1 < i

variable {b : Bounds}

theorem Path.skip (h : Path b all i path) : Path b all (i + 1) path :=
  ⟨h.allowed, h.within, fun x hx => Nat.lt_succ_of_lt (h.before x hx)⟩

theorem Path.take (h : Path b all i path) (hrow : all[i]? = some row) (hj : j ∈ choices row path)
    (hroom : b.Within (path.length + 1)) : Path b all (i + 1) ((i, j) :: path) := by
  obtain ⟨hcompatible, hfree⟩ := mem_choices.1 hj
  refine ⟨?_, hroom, List.forall_mem_cons.2 ⟨Nat.lt_succ_self i, h.skip.before⟩⟩
  rw [List.reverse_cons]
  exact h.allowed.concat (fun x hx => h.before x (List.mem_reverse.1 hx))
    (fun x hx => hfree x (List.mem_reverse.1 hx)) hrow hcompatible

/-- A pairing within the cap that continues a path with rows from `i` on. -/
structure Continues (b : Bounds) (all : List (List Bool)) (i : Nat) (path q : Pairing) : Prop where
  allowed : Allowed all q
  within : b.Within q.length
  onward : ∃ rest, q = path.reverse ++ rest ∧ ∀ x ∈ rest, i ≤ x.1

/-- A pairing that continues a path with a choice from row `i`. -/
def Takes (b : Bounds) (all : List (List Bool)) (row : List Bool) (i : Nat) (path q : Pairing) : Prop :=
  b.Within (path.length + 1) ∧ ∃ j ∈ choices row path, Continues b all (i + 1) ((i, j) :: path) q

namespace Continues

variable {q : Pairing}

theorem of_path (h : Path b all i path) : Continues b all i path path.reverse :=
  ⟨h.allowed, by simpa using h.within, [], by simp, fun _ h => by cases h⟩

theorem eq_path (h : Continues b all i path q) (hlen : q.length ≤ path.length) : q = path.reverse := by
  obtain ⟨rest, rfl, -⟩ := h.onward
  have hrest : rest = [] := by
    rw [← List.length_eq_zero_iff]
    rw [List.length_append, List.length_reverse] at hlen
    omega
  rw [hrest, List.append_nil]

theorem of_skip (h : Continues b all (i + 1) path q) : Continues b all i path q := by
  obtain ⟨rest, hq, hrest⟩ := h.onward
  exact ⟨h.allowed, h.within, rest, hq, fun x hx => Nat.le_of_succ_le (hrest x hx)⟩

theorem of_take (h : Continues b all (i + 1) ((i, j) :: path) q) : Continues b all i path q := by
  obtain ⟨rest, hq, hrest⟩ := h.onward
  refine ⟨h.allowed, h.within, (i, j) :: rest, by rw [hq]; simp, ?_⟩
  exact List.forall_mem_cons.2 ⟨Nat.le_refl i, fun x hx => Nat.le_of_succ_le (hrest x hx)⟩

theorem takes_or_skips (h : Continues b all i path q) (hrow : all[i]? = some row) :
    Takes b all row i path q ∨ Continues b all (i + 1) path q := by
  obtain ⟨rest, rfl, hrest⟩ := h.onward
  cases rest with
  | nil => exact .inr ⟨h.allowed, h.within, [], rfl, fun _ hx => by cases hx⟩
  | cons x rest =>
    have hascending := (List.pairwise_append.1 h.allowed.ascending).2.1
    have hlater : ∀ y ∈ rest, x.1 < y.1 := (List.pairwise_cons.1 hascending).1
    obtain hlt | heq := Nat.lt_or_eq_of_le (hrest x List.mem_cons_self)
    · refine .inr ⟨h.allowed, h.within, x :: rest, rfl, List.forall_mem_cons.2 ⟨hlt, ?_⟩⟩
      exact fun y hy => Nat.le_trans hlt (Nat.le_of_lt (hlater y hy))
    · obtain ⟨k, j⟩ := x
      obtain rfl : i = k := heq
      refine .inl ⟨h.within.of_le (by simp), j, mem_choices.2 ⟨?_, ?_⟩, h.allowed, h.within, rest,
        by simp, hlater⟩
      · obtain ⟨row', hrow', hj⟩ := h.allowed.compatible (i, j) (by simp)
        rw [hrow] at hrow'
        cases hrow'
        exact hj
      · have hdistinct := h.allowed.distinct
        rw [List.map_append, List.map_cons] at hdistinct
        intro y hy heq
        refine (List.nodup_append.1 hdistinct).2.2 y.2 ?_ j List.mem_cons_self heq
        exact List.mem_map_of_mem (List.mem_reverse.2 hy)

theorem eq_path_of_end (h : Continues b all i path q) (hend : all.length ≤ i) : q = path.reverse := by
  refine h.eq_path ?_
  obtain ⟨rest, rfl, hrest⟩ := h.onward
  cases rest with
  | nil => simp
  | cons x rest =>
    obtain ⟨row, hrow, -⟩ := h.allowed.compatible x (by simp)
    have hlt := (List.getElem?_eq_some_iff.1 hrow).1
    have hle := hrest x List.mem_cons_self
    omega

theorem length_le (h : Continues b all i path q) : q.length ≤ path.length + (all.length - i) := by
  obtain ⟨rest, rfl, hrest⟩ := h.onward
  have hascending := (List.pairwise_append.1 h.allowed.ascending).2.1
  have hshifted : (rest.map fun x => (x.1 - i, x.2)).Pairwise fun x y => x.1 < y.1 := by
    refine List.pairwise_map.2 (hascending.imp_of_mem fun {x y} hx _ hlt => ?_)
    have hle := hrest x hx
    show x.1 - i < y.1 - i
    omega
  have hlength := length_le_of_ascending (n := all.length - i) hshifted ?_
  · rw [List.length_append, List.length_reverse]
    rw [List.length_map] at hlength
    omega
  · intro y hy
    obtain ⟨x, hx, rfl⟩ := List.mem_map.1 hy
    obtain ⟨row, hrow, -⟩ := h.allowed.compatible x (List.mem_append_right _ hx)
    have hlt := (List.getElem?_eq_some_iff.1 hrow).1
    have hle := hrest x hx
    show x.1 - i < all.length - i
    omega

theorem partner?_of_lt (h : Continues b all i path q) {k : Nat} (hk : k < i) :
    q.partner? k = partner? path.reverse k := by
  obtain ⟨rest, rfl, hrest⟩ := h.onward
  have hnone : partner? rest k = none := partner?_eq_none fun x hx heq => by
    have hle := hrest x hx
    omega
  rw [partner?_append, hnone, Option.or_none]

theorem partner?_take (h : Continues b all (i + 1) ((i, j) :: path) q) (hpath : Path b all i path) :
    q.partner? i = some j := by
  obtain ⟨rest, rfl, -⟩ := h.onward
  have hnone : partner? path.reverse i = none := partner?_eq_none fun x hx heq => by
    have hlt := hpath.before x (List.mem_reverse.1 hx)
    omega
  rw [List.reverse_cons, List.append_assoc, partner?_append, hnone, List.singleton_append,
    partner?_cons_self, Option.none_or]

theorem partner?_skip (h : Continues b all (i + 1) path q) (hpath : Path b all i path) :
    q.partner? i = none := by
  obtain ⟨rest, rfl, hrest⟩ := h.onward
  refine partner?_eq_none fun x hx heq => ?_
  rcases List.mem_append.1 hx with hx | hx
  · have hlt := hpath.before x (List.mem_reverse.1 hx)
    omega
  · have hle := hrest x hx
    omega

end Continues

theorem continues_iff (hrow : all[i]? = some row) {q : Pairing} : Continues b all i path q ↔
    Takes b all row i path q ∨ Continues b all (i + 1) path q := by
  refine ⟨fun h => h.takes_or_skips hrow, ?_⟩
  rintro (⟨-, j, -, h⟩ | h)
  · exact h.of_take
  · exact h.of_skip

theorem Takes.before_skip {p q : Pairing} (hp : Takes b all row i path p)
    (hq : Continues b all (i + 1) path q) (hpath : Path b all i path) : p.Before q := by
  obtain ⟨-, j, -, hp⟩ := hp
  refine ⟨i, fun k hk => ?_, ?_⟩
  · rw [hp.of_take.partner?_of_lt hk, hq.of_skip.partner?_of_lt hk]
  · rw [hp.partner?_take hpath, hq.partner?_skip hpath]
    trivial

theorem Continues.before_take {j k : Nat} {p q : Pairing}
    (hp : Continues b all (i + 1) ((i, j) :: path) p) (hq : Continues b all (i + 1) ((i, k) :: path) q)
    (hpath : Path b all i path) (hlt : j < k) : p.Before q := by
  refine ⟨i, fun l hl => ?_, ?_⟩
  · rw [hp.of_take.partner?_of_lt hl, hq.of_take.partner?_of_lt hl]
  · rw [hp.partner?_take hpath, hq.partner?_take hpath]
    exact hlt

/-! What the search keeps -/

/-- Going through the pairings of `S` with `best` in hand ends with `r`: it is at least as long as any
of them and, unless it is still `best`, a longer one, and the first of that length. -/
structure Selects (S : Pairing → Prop) (best r : Pairing) : Prop where
  best_le : best.length ≤ r.length
  longest : ∀ q, S q → q.length ≤ r.length
  first : r = best ∨
    S r ∧ best.length < r.length ∧ ∀ q, S q → q.length = r.length → q = r ∨ r.Before q

variable {S T U : Pairing → Prop} {r s : Pairing}

theorem selects_rest (h : ∀ q, S q → q.length ≤ best.length) : Selects S best best :=
  ⟨Nat.le_refl _, h, .inl rfl⟩

theorem Selects.next (h : Selects S best r) (g : Selects T r s) (hU : ∀ q, U q ↔ S q ∨ T q)
    (hbefore : ∀ p q, S p → T q → p.length = q.length → q = p ∨ p.Before q) : Selects U best s := by
  refine ⟨Nat.le_trans h.best_le g.best_le, fun q hq => ?_, ?_⟩
  · rcases (hU q).1 hq with hq | hq
    · exact Nat.le_trans (h.longest q hq) g.best_le
    · exact g.longest q hq
  · rcases g.first with rfl | ⟨hs, hlonger, hfirst⟩
    · refine h.first.imp_right fun ⟨hr, hlonger, hfirst⟩ => ⟨(hU s).2 (.inl hr), hlonger, ?_⟩
      intro q hq hlen
      rcases (hU q).1 hq with hq | hq
      · exact hfirst q hq hlen
      · exact hbefore s q hr hq hlen.symm
    · refine .inr ⟨(hU s).2 (.inr hs), Nat.lt_of_le_of_lt h.best_le hlonger, fun q hq hlen => ?_⟩
      rcases (hU q).1 hq with hq | hq
      · have hle := h.longest q hq
        omega
      · exact hfirst q hq hlen

/-- A search through the pairings of `S` that ends early only with a pairing of the target size. -/
structure Searches (b : Bounds) (S : Pairing → Prop) (best : Pairing) (p : Progress) : Prop where
  selects : Selects S best p.best
  target : p.finished = true → b.target ≤ p.best.length

theorem Searches.stop {p : Progress} (h : Searches b S best p) (hfinished : p.finished = true)
    (htarget : ∀ q, T q → q.length ≤ b.target) (hU : ∀ q, U q ↔ S q ∨ T q)
    (hbefore : ∀ p q, S p → T q → p.length = q.length → q = p ∨ p.Before q) :
    Searches b U best p := by
  have hrest : Selects T p.best p.best :=
    selects_rest fun q hq => Nat.le_trans (htarget q hq) (h.target hfinished)
  exact ⟨h.selects.next hrest hU hbefore, h.target⟩

theorem Searches.next {p p' : Progress} (h : Searches b S best p) (g : Searches b T p.best p')
    (hU : ∀ q, U q ↔ S q ∨ T q)
    (hbefore : ∀ p q, S p → T q → p.length = q.length → q = p ∨ p.Before q) :
    Searches b U best p' :=
  ⟨h.selects.next g.selects hU hbefore, g.target⟩

theorem searches_improve (b : Bounds) (path best : Pairing) :
    Searches b (· = path.reverse) best (.improve b path best) := by
  rw [Progress.improve]
  split
  · rename_i hlonger
    refine ⟨⟨?_, ?_, .inr ⟨rfl, ?_, fun q hq _ => .inl hq⟩⟩, ?_⟩
    · rw [List.length_reverse]
      exact Nat.le_of_lt hlonger
    · rintro q rfl
      exact Nat.le_refl _
    · rw [List.length_reverse]
      exact hlonger
    · intro hfinished
      rw [List.length_reverse]
      exact of_decide_eq_true hfinished
  · rename_i hshort
    refine ⟨selects_rest ?_, fun h => by cases h⟩
    rintro q rfl
    rw [List.length_reverse]
    exact Nat.le_of_not_lt hshort

theorem searches_visitEach {E : Nat → Pairing → Prop} {visit : Nat → Pairing → Progress}
    {js : List Nat} (hvisit : ∀ j ∈ js, ∀ best, Searches b (E j) best (visit j best))
    (htarget : ∀ j ∈ js, ∀ q, E j q → q.length ≤ b.target)
    (hbefore : js.Pairwise fun j k => ∀ p q, E j p → E k q → p.Before q) (best : Pairing) :
    Searches b (fun q => ∃ j ∈ js, E j q) best (visitEach visit js best) := by
  induction js generalizing best with
  | nil =>
    refine ⟨selects_rest ?_, fun hfinished => by cases hfinished⟩
    rintro q ⟨j, hj, -⟩
    cases hj
  | cons j js ih =>
    obtain ⟨hhead, hbefore⟩ := List.pairwise_cons.1 hbefore
    have hfirst := hvisit j List.mem_cons_self best
    have hrest := ih (fun k hk => hvisit k (List.mem_cons_of_mem _ hk))
      (fun k hk => htarget k (List.mem_cons_of_mem _ hk)) hbefore
    have hsplit : ∀ q, (∃ k ∈ j :: js, E k q) ↔ E j q ∨ ∃ k ∈ js, E k q := by
      intro q
      simp only [List.mem_cons, exists_eq_or_imp]
    have horder : ∀ p q, E j p → (∃ k ∈ js, E k q) → p.length = q.length →
        q = p ∨ p.Before q :=
      fun p q hp ⟨k, hk, hq⟩ _ => .inr (hhead k hk p q hp hq)
    rw [visitEach]
    split
    · rename_i hfinished
      refine hfirst.stop hfinished ?_ hsplit horder
      exact fun q ⟨k, hk, hq⟩ => htarget k (List.mem_cons_of_mem _ hk) q hq
    · exact hfirst.next (hrest _) hsplit horder

theorem pairwise_choices (row : List Bool) (path : Pairing) :
    (choices row path).Pairwise (· < ·) :=
  List.pairwise_lt_range.filter _

theorem searches_takes (visit : Nat → Pairing → Progress) {p : Progress} (hpath : Path b all i path)
    (htarget : ∀ q, Allowed all q → b.Within q.length → q.length ≤ b.target)
    (hvisit : ∀ j ∈ choices row path, b.Within (path.length + 1) → ∀ best,
      Searches b (Continues b all (i + 1) ((i, j) :: path)) best (visit j best))
    (hgoing : p.finished = false) :
    Searches b (Takes b all row i path) p.best
      (if b.allows path.length then visitEach visit (choices row path) p.best else p) := by
  split
  · rename_i hallows
    have hroom := Bounds.allows_iff.1 hallows
    have htakes : Takes b all row i path =
        fun q => ∃ j ∈ choices row path, Continues b all (i + 1) ((i, j) :: path) q := by
      funext q
      exact propext ⟨fun h => h.2, fun h => ⟨hroom, h⟩⟩
    rw [htakes]
    refine searches_visitEach (fun j hj => hvisit j hj hroom)
      (fun j _ q hq => htarget q hq.allowed hq.within) ?_ p.best
    exact (pairwise_choices row path).imp fun hlt p q hp hq => hp.before_take hq hpath hlt
  · rename_i hallows
    have hfull : ¬ b.Within (path.length + 1) := fun h => hallows (Bounds.allows_iff.2 h)
    refine ⟨selects_rest fun q hq => absurd hq.1 hfull, fun hfinished => ?_⟩
    rw [hgoing] at hfinished
    cases hfinished

/-- The search behind a path goes through all that continue it. What it leaves out is no longer than
what it has: the rows to come are too few, or the cap or the target is reached. -/
theorem searches_search (htarget : ∀ q, Allowed all q → b.Within q.length → q.length ≤ b.target)
    (hrows : all.drop i = rows) (hpath : Path b all i path) (best : Pairing) :
    Searches b (Continues b all i path) best (search b rows i path best) := by
  have hbound : ∀ k path q, Continues b all k path q → q.length ≤ b.target :=
    fun k path q h => htarget q h.allowed h.within
  induction rows generalizing i path best with
  | nil =>
    have hend : all.length ≤ i := List.drop_eq_nil_iff.1 hrows
    have honly : Continues b all i path = (· = path.reverse) := by
      funext q
      exact propext ⟨fun h => h.eq_path_of_end hend, fun h => h ▸ .of_path hpath⟩
    rw [search, honly]
    exact searches_improve b path best
  | cons row rows ih =>
    have hrow : all[i]? = some row := by
      have hhead := congrArg (·[0]?) hrows
      simpa using hhead
    have hnext : all.drop (i + 1) = rows := by
      rw [← List.tail_drop, hrows, List.tail_cons]
    have hlength : all.length - i = rows.length + 1 := by
      rw [← List.length_drop, hrows, List.length_cons]
    have himprove := searches_improve b path best
    have hwhole : ∀ q, Continues b all i path q ↔ q = path.reverse ∨ Continues b all i path q :=
      fun q => ⟨.inr, fun h => h.elim (fun h => h ▸ .of_path hpath) id⟩
    have hpathfirst : ∀ p q : Pairing, p = path.reverse → Continues b all i path q → p.length = q.length →
        q = p ∨ p.Before q := by
      rintro p q rfl hq hlen
      rw [List.length_reverse] at hlen
      exact .inl (hq.eq_path (Nat.le_of_eq hlen.symm))
    rw [search]
    dsimp only
    generalize Progress.improve b path best = p at himprove ⊢
    split
    · rename_i hfinished
      exact himprove.stop hfinished (hbound i path) hwhole hpathfirst
    · rename_i hgoing
      split
      · rename_i hfew
        have hrest : Searches b (Continues b all i path) p.best p := by
          refine ⟨selects_rest fun q hq => ?_, himprove.target⟩
          have hle := hq.length_le
          omega
        exact himprove.next hrest hwhole hpathfirst
      · have htakes := searches_takes (fun j best => search b rows (i + 1) ((i, j) :: path) best) hpath
          htarget (fun j hj hroom => ih hnext (hpath.take hrow hj hroom)) (Bool.eq_false_iff.2 hgoing)
        have hskipped : ∀ p q : Pairing, Takes b all row i path p → Continues b all (i + 1) path q →
            p.length = q.length → q = p ∨ p.Before q :=
          fun p q hp hq _ => .inr (hp.before_skip hq hpath)
        refine himprove.next ?_ hwhole hpathfirst
        generalize (if b.allows path.length then
            visitEach (fun j best => search b rows (i + 1) ((i, j) :: path) best)
              (choices row path) p.best
          else p) = taken at htakes ⊢
        split
        · rename_i hfinished
          exact htakes.stop hfinished (hbound (i + 1) path) (fun _ => continues_iff hrow) hskipped
        · exact htakes.next (ih hnext hpath.skip _) (fun _ => continues_iff hrow) hskipped

/-! The pairing of a table -/

/-- The longest pairing that a table allows within a cap, and of these the first. -/
structure FirstLongest (cap : Option Nat) (rows : List (List Bool)) (p : Pairing) : Prop where
  allowed : Allowed rows p
  within : ∀ c ∈ cap, p.length ≤ c
  longest : ∀ q, Allowed rows q → (∀ c ∈ cap, q.length ≤ c) → q.length ≤ p.length
  first : ∀ q, Allowed rows q → q.length = p.length → q = p ∨ p.Before q

theorem FirstLongest.unique {cap : Option Nat} {q : Pairing} (hp : FirstLongest cap rows p)
    (hq : FirstLongest cap rows q) : p = q := by
  have hlen : p.length = q.length := Nat.le_antisymm (hq.longest p hp.allowed hp.within)
    (hp.longest q hq.allowed hq.within)
  rcases hp.first q hq.allowed hlen.symm with rfl | hpq
  · rfl
  · rcases hq.first p hp.allowed hlen with rfl | hqp
    · rfl
    · exact (hpq.asymm hqp).elim

theorem firstLongest_of_target
    (htarget : ∀ q, Allowed rows q → b.Within q.length → q.length ≤ b.target) :
    FirstLongest b.cap rows (Pairing.best b rows) := by
  have hpath : Path b rows 0 [] :=
    ⟨allowed_nil, fun c _ => Nat.zero_le c, fun _ h => by cases h⟩
  have hcontinues : ∀ q, Allowed rows q → b.Within q.length → Continues b rows 0 [] q :=
    fun q hq hwithin => ⟨hq, hwithin, q, rfl, fun x _ => Nat.zero_le x.1⟩
  obtain ⟨-, hlongest, hfirst⟩ := (searches_search htarget List.drop_zero hpath []).selects
  rcases hfirst with hnil | ⟨hbest, -, hfirst⟩
  · have hempty : Pairing.best b rows = [] := hnil
    rw [hnil] at hlongest
    rw [hempty]
    refine ⟨allowed_nil, fun c _ => Nat.zero_le c, fun q hq hwithin => ?_, fun q _ hlen => .inl ?_⟩
    · exact hlongest q (hcontinues q hq hwithin)
    · exact List.length_eq_zero_iff.1 hlen
  · refine ⟨hbest.allowed, hbest.within, fun q hq hwithin => ?_, fun q hq hlen => ?_⟩
    · exact hlongest q (hcontinues q hq hwithin)
    · exact hfirst q (hcontinues q hq (hbest.within.of_le (Nat.le_of_eq hlen))) hlen

def Bounds.ofTable (cap : Option Nat) (n m : Nat) : Bounds :=
  ⟨cap, cap.elim (min n m) (min · (min n m))⟩

theorem Allowed.length_le_columns {m : Nat} (h : Allowed rows p)
    (hrows : ∀ row ∈ rows, row.length = m) : p.length ≤ m := by
  have hsubset : p.map (·.2) ⊆ List.range m := by
    intro j hj
    obtain ⟨x, hx, rfl⟩ := List.mem_map.1 hj
    obtain ⟨row, hrow, hj⟩ := h.compatible x hx
    have hlt := (List.getElem?_eq_some_iff.1 hj).1
    rw [hrows row (List.mem_of_getElem? hrow)] at hlt
    exact List.mem_range.2 hlt
  have hle := (List.subperm_of_subset h.distinct hsubset).length_le
  rwa [List.length_map, List.length_range] at hle

theorem Allowed.length_le_rows (h : Allowed rows p) : p.length ≤ rows.length :=
  length_le_of_ascending h.ascending fun x hx => by
    obtain ⟨row, hrow, -⟩ := h.compatible x hx
    exact (List.getElem?_eq_some_iff.1 hrow).1

theorem firstLongest_best (cap : Option Nat) {m : Nat} (hrows : ∀ row ∈ rows, row.length = m) :
    FirstLongest cap rows (Pairing.best (.ofTable cap rows.length m) rows) := by
  refine firstLongest_of_target (b := .ofTable cap rows.length m) fun q hq hwithin => ?_
  have hn := hq.length_le_rows
  have hm := hq.length_le_columns hrows
  cases cap with
  | none => exact Nat.le_min.2 ⟨hn, hm⟩
  | some c => exact Nat.le_min.2 ⟨hwithin c rfl, Nat.le_min.2 ⟨hn, hm⟩⟩

end Pairing

end OrderBook
