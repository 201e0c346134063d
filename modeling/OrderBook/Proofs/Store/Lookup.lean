import Mathlib.Data.List.Nodup
import OrderBook.Search.Engine
import OrderBook.Store.Book

/-!
Looking orders up in a book. A book holds one order for each id, and reading it never fails.
-/

namespace OrderBook

namespace Keyed

variable {α : Type} {key : α → String}

theorem nodup_keys (m : Keyed key) : (m.entries.map key).Nodup := by
  refine List.pairwise_map.2 (m.ascending.imp ?_)
  intro a b h e
  rw [e] at h
  exact String.lt_irrefl _ h

theorem find?_eq_some {k : String} {m : Keyed key} {x : α} :
    m.find? k = some x ↔ x ∈ m.entries ∧ key x = k := by
  constructor
  · exact fun h => ⟨List.mem_of_find?_eq_some h, find?_key h⟩
  · intro ⟨hx, hk⟩
    cases hf : m.find? k with
    | none => exact absurd hk (by simpa using List.find?_eq_none.1 hf x hx)
    | some y =>
      have hy := List.mem_of_find?_eq_some hf
      exact congrArg some (List.inj_on_of_nodup_map m.nodup_keys hy hx ((find?_key hf).trans hk.symm))

end Keyed

namespace Book

variable {b : Book}

theorem find?_eq_some {id : String} {r : ResolvedOrder} :
    b.find? id = some r ↔ r ∈ b.orders.entries ∧ r.id = id := Keyed.find?_eq_some

theorem nodup_entries (b : Book) : b.orders.entries.Nodup := b.orders.nodup_keys.of_map _

theorem resolve?_source (b : Book) (id : String) : b.source.resolve? id = .ok (b.find? id) := by
  have horder : b.source.order? id = .ok ((b.find? id).map (·.order)) := rfl
  have hitems : b.source.items id = .ok (b.itemsOf id) := rfl
  rw [OrderSource.resolve?, horder, hitems, itemsOf]
  cases b.find? id with
  | none => rfl
  | some r => rfl

theorem resolveAll_source (b : Book) (ids : List String) :
    Engine.resolveAll b.source ids = .ok (ids.filterMap b.find?) := by
  induction ids with
  | nil => rfl
  | cons id ids ih =>
    rw [Engine.resolveAll, resolve?_source, ih, List.filterMap_cons]
    cases b.find? id with
    | none => rfl
    | some r => rfl

end Book

end OrderBook
