import Mathlib.Data.List.Basic
import Mathlib.Data.Set.Function
import OrderBook.Record.Basic

/-!
What the id of a record tells. It is the digest of a text in which colons join the ids of the orders,
and an id may hold colons of its own. So the text tells the pieces between all colons, in the order of
the ids: the orders themselves where no id has a colon, and else no more than these pieces.
-/

namespace OrderBook

theorem splitOn_intercalate_eq_flatMap {α : Type} [BEq α] [LawfulBEq α] (x : α) {ls : List (List α)}
    (h : ls ≠ []) : ([x].intercalate ls).splitOn x = ls.flatMap (·.splitOn x) := by
  induction ls with
  | nil => exact absurd rfl h
  | cons l ls ih =>
    cases ls with
    | nil => simp
    | cons m ls =>
      have hjoin : [x].intercalate (l :: m :: ls) = l ++ x :: [x].intercalate (m :: ls) := by
        simp [List.intercalate_cons_cons]
      rw [hjoin, List.flatMap_cons, ← ih (List.cons_ne_nil m ls)]
      exact List.splitOn_append_cons_self _ _

theorem splitOn_injective {α : Type} [BEq α] [LawfulBEq α] (x : α) {l m : List α}
    (h : l.splitOn x = m.splitOn x) : l = m := by
  have hjoined := congrArg [x].intercalate h
  rwa [List.intercalate_splitOn, List.intercalate_splitOn] at hjoined

/-! Ids in ascending order -/

theorem perm_sortedIds (ids : List String) : (sortedIds ids).Perm ids := List.mergeSort_perm ids _

theorem ascending_sortedIds (ids : List String) : (sortedIds ids).Pairwise (· ≤ ·) := by
  have hsorted : (sortedIds ids).Pairwise fun a b => decide (a ≤ b) = true :=
    List.pairwise_mergeSort (by simpa using fun _ _ _ => String.le_trans)
      (by simpa using String.le_total) ids
  simpa using hsorted

theorem sortedIds_of_ascending {ids : List String} (h : ids.Pairwise (· ≤ ·)) :
    sortedIds ids = ids :=
  List.mergeSort_of_pairwise (by simpa using h)

theorem sortedIds_eq_iff {l m : List String} : sortedIds l = sortedIds m ↔ l.Perm m := by
  constructor
  · intro h
    exact (perm_sortedIds l).symm.trans (h ▸ perm_sortedIds m)
  · intro h
    refine List.Perm.eq_of_pairwise (fun _ _ _ _ => String.le_antisymm) (ascending_sortedIds l)
      (ascending_sortedIds m) ?_
    exact (perm_sortedIds l).trans (h.trans (perm_sortedIds m).symm)

theorem sortedIds_eq {l m : List String} (h : l.Perm m) (hm : m.Pairwise (· ≤ ·)) :
    sortedIds l = m :=
  (sortedIds_eq_iff.2 h).trans (sortedIds_of_ascending hm)

theorem sortedIds_ne_nil {ids : List String} (h : ids ≠ []) : sortedIds ids ≠ [] := fun hnil =>
  h (hnil ▸ perm_sortedIds ids).symm.eq_nil

/-! The joined text -/

/-- The text of which the id of some orders is the digest. -/
def joinedIds (ids : List String) : String := String.intercalate ":" (sortedIds ids)

theorem matchId_eq (ids : List String) : matchId ids = Digest.ofText (joinedIds ids) := rfl

/-- The pieces between the colons, one id after the other. No ids at all read as an empty one. -/
def idPieces : List String → List (List Char)
  | [] => [[]]
  | ids => (sortedIds ids).flatMap fun id => id.toList.splitOn ':'

theorem idPieces_of_ne_nil {ids : List String} (h : ids ≠ []) :
    idPieces ids = (sortedIds ids).flatMap fun id => id.toList.splitOn ':' := by
  rw [idPieces]
  exact h

theorem splitOn_joinedIds (ids : List String) : (joinedIds ids).toList.splitOn ':' = idPieces ids := by
  by_cases h : ids = []
  · subst h
    simp [joinedIds, sortedIds, idPieces]
  · have hparts : (sortedIds ids).map String.toList ≠ [] := by
      simpa using sortedIds_ne_nil h
    rw [joinedIds, String.toList_intercalate, idPieces_of_ne_nil h]
    exact (splitOn_intercalate_eq_flatMap ':' hparts).trans (List.flatMap_map ..)

theorem joinedIds_eq_iff {l m : List String} : joinedIds l = joinedIds m ↔ idPieces l = idPieces m := by
  rw [← splitOn_joinedIds, ← splitOn_joinedIds]
  constructor
  · exact fun h => congrArg (fun s : String => s.toList.splitOn ':') h
  · exact fun h => String.toList_inj.1 (splitOn_injective ':' h)

structure PlainIds (ids : List String) : Prop where
  ne_nil : ids ≠ []
  no_colon : ∀ id ∈ ids, ':' ∉ id.toList

theorem PlainIds.idPieces_eq {ids : List String} (h : PlainIds ids) :
    idPieces ids = (sortedIds ids).map String.toList := by
  have hsingle : ∀ id ∈ sortedIds ids, id.toList.splitOn ':' = [id.toList] := fun id hid =>
    List.splitOn_eq_singleton (h.no_colon id ((perm_sortedIds ids).mem_iff.1 hid))
  rw [idPieces_of_ne_nil h.ne_nil, List.map_eq_flatMap]
  exact List.flatMap_congr hsingle

theorem PlainIds.joinedIds_eq_iff {l m : List String} (hl : PlainIds l) (hm : PlainIds m) :
    joinedIds l = joinedIds m ↔ l.Perm m := by
  rw [OrderBook.joinedIds_eq_iff, hl.idPieces_eq, hm.idPieces_eq, ← sortedIds_eq_iff]
  exact List.map_inj_right fun _ _ => String.toList_inj.1

theorem matchId_of_perm {l m : List String} (h : l.Perm m) : matchId l = matchId m :=
  congrArg (fun ids => Digest.ofText (String.intercalate ":" ids)) (sortedIds_eq_iff.2 h)

theorem PlainIds.matchId_eq_iff {texts : Set String} (hdigest : Set.InjOn Digest.ofText texts)
    {l m : List String} (hl : PlainIds l) (hm : PlainIds m) (hltext : joinedIds l ∈ texts)
    (hmtext : joinedIds m ∈ texts) : matchId l = matchId m ↔ l.Perm m := by
  rw [matchId_eq, matchId_eq, hdigest.eq_iff hltext hmtext, hl.joinedIds_eq_iff hm]

end OrderBook
