import OrderBook.Order.Validation
import OrderBook.Search.FlowPass

/-!
One-to-many search: a root of several tokens filled exactly by opposing orders of one token each. The
pool of candidates is sorted by age. A pass works on the whole pool; after it the oldest candidate
leaves the pool and the next pass starts afresh. Records are found one at a time, on demand.
-/

namespace OrderBook

structure OneToMany where
  chain : PolicyChain
  root : ResolvedOrder
  now : UInt64
  /-- The candidates that wait for a pass of which they are the oldest. -/
  pool : List ResolvedOrder
  pass : Option FlowPass := none
  /-- The ids of the records found so far. -/
  yielded : List String := []
  finished : Bool := false

namespace OneToMany

/-- Whether an order may help to fill the root: it is on the other side, asks for one token and is not
the root itself. -/
def isPoolCandidate (root c : ResolvedOrder) : Bool :=
  c.order.numItems == 1 && c.order.side == root.order.side.opposite && c.id != root.id

/-- Older orders come first, and of two of one age the one with the smaller id. -/
def isOlder (a b : ResolvedOrder) : Bool :=
  ((compare a.order.startTime b.order.startTime).then (compare a.id b.id)).isLE

def poolOf (root : ResolvedOrder) (candidates : List ResolvedOrder) : List ResolvedOrder :=
  (candidates.filter (isPoolCandidate root)).mergeSort isOlder

def start (chain : PolicyChain) (root : ResolvedOrder) (candidates : List ResolvedOrder)
    (now : UInt64) : OneToMany :=
  { chain, root, now, pool := poolOf root candidates }

/-- The work left: none when finished, else the passes to come and the slack of the current one. -/
def work (s : OneToMany) : Nat × Nat × Nat :=
  (if s.finished then 0 else 1, s.pool.length, s.pass.elim 0 fun p => p.graph.slack + 1)

/-- What a search does next. -/
inductive Move where
  | stop (after : OneToMany)
  | give (result : Result OneToManyMatch) (after : OneToMany)
  | go (after : OneToMany)

/-- The move of a search within a pass. A record found before is passed over. -/
def movePass (s : OneToMany) (p : FlowPass) : Move :=
  match p.step s.now with
  | .error e => .give (.error e) { s with finished := true }
  | .ok .exhausted => .go { s with pass := none }
  | .ok (.more q) => .go { s with pass := some q }
  | .ok (.found record q) =>
    if s.yielded.contains record.id then .go { s with pass := some q }
    else .give (.ok record) { s with pass := some q, yielded := record.id :: s.yielded }

/-- One move: the search stops when the pool is empty and no pass is left, builds the next pass, or
makes a step in the current one. An error ends the search. -/
def move (s : OneToMany) : Move :=
  if s.finished then .stop s
  else
    match s.pass, s.pool with
    | some p, _ => s.movePass p
    | none, [] => .stop { s with finished := true }
    | none, c :: rest =>
      match FlowPass.build s.chain s.root (c :: rest) with
      | .error e => .give (.error e) { s with finished := true }
      | .ok p => .go { s with pass := some p, pool := rest }

/-- The state a move that does not stop leads to. -/
def Move.after? : Move → Option OneToMany
  | .stop _ => none
  | .give _ t => some t
  | .go t => some t

/-- Less work, in the order of its parts. -/
def LessWork (t s : OneToMany) : Prop :=
  t.work.1 < s.work.1 ∨ t.work.1 = s.work.1 ∧
    (t.work.2.1 < s.work.2.1 ∨ t.work.2.1 = s.work.2.1 ∧ t.work.2.2 < s.work.2.2)

theorem LessWork.trans {a b c : OneToMany} (h : LessWork a b) (g : LessWork b c) : LessWork a c := by
  unfold LessWork at *; omega

theorem LessWork.decreases {t s : OneToMany} (h : LessWork t s) :
    WellFoundedRelation.rel t.work s.work := by
  simpa [LessWork, WellFoundedRelation.rel, Prod.lex_def, InvImage] using h

theorem lessWork_of_finished {s t : OneToMany} (hs : s.finished = false) (ht : t.finished = true) :
    LessWork t s := by
  simp [LessWork, work, hs, ht]

theorem lessWork_movePass {s t : OneToMany} {p : FlowPass} (hf : s.finished = false)
    (hp : s.pass = some p) (h : (s.movePass p).after? = some t) : LessWork t s := by
  unfold movePass at h
  split at h
  · cases h; exact lessWork_of_finished hf rfl
  · cases h; simp [LessWork, work, hp]
  · rename_i q hq
    cases h
    simpa [LessWork, work, hp] using FlowPass.slack_step hq rfl
  · rename_i record q hq
    have hs := FlowPass.slack_step hq rfl
    split at h
    all_goals
      cases h
      simpa [LessWork, work, hp] using hs

/-- Every move that does not stop leaves less work. -/
theorem lessWork_move {s t : OneToMany} (h : s.move.after? = some t) : LessWork t s := by
  unfold move at h
  split at h
  · cases h
  · rename_i hf
    have hf : s.finished = false := by simpa using hf
    split at h
    · rename_i hp; exact lessWork_movePass hf hp h
    · cases h
    · rename_i hpool
      split at h
      · cases h; exact lessWork_of_finished hf rfl
      · cases h; simp [LessWork, work, hpool]

/-- The next record, or the error that ends the search, with the state after it. -/
def next (s : OneToMany) : Option (Result OneToManyMatch) × OneToMany :=
  match _h : s.move with
  | .stop t => (none, t)
  | .give r t => (some r, t)
  | .go t => next t
termination_by s.work
decreasing_by exact (lessWork_move (by rw [_h]; rfl)).decreases

theorem lessWork_next {s t : OneToMany} {r : Result OneToManyMatch} (h : s.next = (some r, t)) :
    LessWork t s := by
  fun_induction next s with
  | case1 s u hm => simp at h
  | case2 s r' u hm =>
    obtain ⟨-, rfl⟩ : r' = r ∧ u = t := by simpa using h
    exact lessWork_move (by rw [hm]; rfl)
  | case3 s u hm ih => exact (ih h).trans (lessWork_move (by rw [hm]; rfl))

/-- Everything a search still finds, each with the number of candidates that wait after it, and the
state at the end. -/
def drain (s : OneToMany) : List (Result OneToManyMatch × Nat) × OneToMany :=
  match _h : s.next with
  | (none, t) => ([], t)
  | (some r, t) =>
    let (rest, last) := drain t
    ((r, t.pool.length) :: rest, last)
termination_by s.work
decreasing_by all_goals exact (lessWork_next _h).decreases

/-- The records of a search, or the error that ends it. -/
def records (s : OneToMany) : Result (List OneToManyMatch) := s.drain.1.mapM (·.1)

end OneToMany

end OrderBook
