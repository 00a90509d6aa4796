/-
  Any number of vectors that share buffers behave as independent lists.

  A world is a memory and the vectors in it; a call runs one of the functions on one of them, with
  items taken from the caller's memory or from another vector.  `Effect` says what a call does to the
  lists: it changes the list of its own vector, as the name says, or reports why not; it mentions
  neither buffers nor counts.

  1. Every world holds its lists (`Denotes`), with the buffers accounted for by the vectors.
  2. One call keeps that and has its effect (`call_spec`, one lemma for each kind of call).
  3. So it is in every run of admitted calls (`vectors_are_values`, `buffers_are_counted`).

  A call may report that memory was refused (`R` below); that is then one of its own requests, since the
  machine that refuses none would make something else of the call (`RefusedIn`).

  What a call must not do is said by `Allowed`: use a vector that is not there, take items from the very
  vector it changes, and, for a type that cannot be moved onto itself, insert or remove no items in the
  middle of the list.
-/
import Codina.Utils.VectorSort
import Codina.Lib.Runs

namespace Codina.Utils.VectorImpl

open Codina.Faults Codina.Faults.Prog Codina.Refcount Codina.Slots Codina.Utils.SharedBuffer Codina.Runs

variable {α : Type}

/-! ## Worlds and calls -/

structure World (α : Type) where
  memory : Memory α
  vectors : List VectorImpl

def World.empty : World α := ⟨Heap.empty, []⟩

/-- Items an operation reads: an array of the caller, or `n` items of vector `j` from item `k` on. -/
inductive Arg (α : Type) where
  | items (xs : List α)
  | part (j k n : Nat)

inductive Call (α : Type) where
  | new
  | copy (j : Nat)
  | assign (i j : Nat)
  | finish (i : Nat)
  | insertArrayAt (i : Nat) (arg : Arg α) (index : Nat)
  | insertVectorAt (i j index : Nat)
  /-- `item` is the first of the argument's items, or none. -/
  | insertAt (i : Nat) (item : Option (Arg α)) (index n : Nat)
  | replaceAt (i : Nat) (item : Arg α) (index : Nat)
  | removeItemsAt (i index count : Nat)
  | clear (i : Nat)
  | setCapacity (i n : Nat)
  | resize (i size : Nat)
  | sort (i : Nat) (cmp : α → α → Int)

def Arg.length : Arg α → Nat
  | .items xs => xs.length
  | .part _ _ n => n

/-- The pointer that is passed. -/
def Arg.src (w : World α) : Arg α → Src α
  | .items xs => .outside xs
  | .part j k _ => (w.vectors[j]?).elim (.outside []) fun v => array v k

/-- Run a function on vector `i`. -/
def on (i : Nat) (f : VectorImpl → M α (VectorImpl × Int)) : Prog (World α) Int := fun w =>
  match w.vectors[i]? with
  | none => .undefined
  | some v =>
    match f v w.memory with
    | .returns ((v', r), h') => .returns (r, ⟨h', w.vectors.set i v'⟩)
    | .aborts => .aborts
    | .undefined => .undefined

/-- A function that is given vector `j`. -/
def withVector (j : Nat) (f : VectorImpl → Prog (World α) Int) : Prog (World α) Int := fun w =>
  match w.vectors[j]? with
  | none => .undefined
  | some v => f v w

/-- A function that makes a vector. -/
def push_back (p : M α VectorImpl) : Prog (World α) Int := fun w =>
  match p w.memory with
  | .returns (v, h') => .returns (0, ⟨h', w.vectors ++ [v]⟩)
  | .aborts => .aborts
  | .undefined => .undefined

/-- A function without a result. -/
def void (p : M α VectorImpl) : M α (VectorImpl × Int) := do
  let v ← p
  return (v, 0)

variable (P : Platform) (T : Traits α)

def call : Call α → Prog (World α) Int
  | .new => push_back (return new)
  | .copy j => withVector j fun v => push_back (copy v)
  | .assign i j => withVector j fun rhs => on i fun this => void (assign T this rhs (i = j))
  | .finish i => on i fun this => void (finish_vector T this)
  | .insertArrayAt i arg index => fun w =>
    on i (fun this => insertArrayAt P T this (arg.src w) index arg.length) w
  | .insertVectorAt i j index => withVector j fun vector =>
    on i fun this => insertVectorAt P T this vector index
  | .insertAt i item index n => fun w =>
    on i (fun this => insertAt P T this (item.map (Arg.src w)) index n) w
  | .replaceAt i item index => fun w =>
    on i (fun this => replaceAt P T this (some (item.src w)) index) w
  | .removeItemsAt i index count => on i fun this => removeItemsAt P T this index count
  | .clear i => on i fun this => void (clear P T this)
  | .setCapacity i n => on i fun this => setCapacity P T this n
  | .resize i size => on i fun this => resize P T this size
  | .sort i cmp => on i fun this => sort P T cmp this

/-- One call that returns. -/
def step (w : World α) (c : Call α) : Option (World α) :=
  match call P T c w with
  | .returns (_, w') => some w'
  | _ => none

/-! ## What a call may be -/

/-- The count of vector `i`. -/
def World.size (w : World α) (i : Nat) : Nat := (w.vectors[i]?).elim 0 VectorImpl.mCount

/-- The items lie in memory that is not that of vector `i`. -/
def Arg.Apart (w : World α) (i : Nat) : Arg α → Prop
  | .items _ => True
  | .part j k n => j < w.vectors.length ∧ j ≠ i ∧ k + n ≤ w.size j

/-- `amount` items at `index` of vector `i`, more than none unless at the end. -/
def MoveOk (w : World α) (i index amount : Nat) : Prop :=
  amount = 0 → w.size i ≤ index ∨ T.trivialMove = true

def Allowed (w : World α) : Call α → Prop
  | .new => True
  | .copy j => j < w.vectors.length
  | .assign i j => i < w.vectors.length ∧ j < w.vectors.length
  | .finish i => i < w.vectors.length
  | .insertArrayAt i arg index => i < w.vectors.length ∧ arg.Apart w i ∧ MoveOk T w i index arg.length
  | .insertVectorAt i j index => i < w.vectors.length ∧ j < w.vectors.length ∧ j ≠ i ∧
      MoveOk T w i index (w.size j)
  | .insertAt i item index n => i < w.vectors.length ∧ MoveOk T w i index n ∧
      ∀ arg, item = some arg → arg.Apart w i ∧ arg.length = 1
  | .replaceAt i item _ => i < w.vectors.length ∧ item.Apart w i ∧ item.length = 1
  | .removeItemsAt i index count => i < w.vectors.length ∧ MoveOk T w i index count ∧
      index + count < 0x100000000
  | .clear i => i < w.vectors.length ∧ MoveOk T w i 0 (w.size i)
  | .setCapacity i _ => i < w.vectors.length
  | .resize i size => i < w.vectors.length ∧ size < 0x80000000
  | .sort i _ => i < w.vectors.length ∧ w.size i < 0x80000000

/-- The number of items a call asks room for. -/
def Call.room (w : World α) : Call α → Nat
  | .insertArrayAt i arg _ => w.size i + arg.length
  | .insertVectorAt i j _ => w.size i + w.size j
  | .insertAt i _ _ n => w.size i + n
  | .setCapacity _ n => n
  | .resize _ size => size
  | _ => 0

/-! ## The lists -/

/-- The items of a vector in a memory. -/
def contents (h : Memory α) (v : VectorImpl) : List α :=
  match v.mStorage with
  | some a => (h.cells a).elim [] fun c => (c.payload.slots.take v.mCount).filterMap id
  | none => []

def World.items (w : World α) : List (List α) := w.vectors.map (contents w.memory)

def Arg.values (ls : List (List α)) : Arg α → List α
  | .items xs => xs
  | .part j k n => slice (ls.getD j []) k n

section

variable (R : Prop)

/-- `xs` inserted in list `i`, or why not; `R`: a request was refused. -/
def Inserted (ls : List (List α)) (i index : Nat) (xs : List α) (r : Int) (ls' : List (List α)) : Prop :=
  if index ≤ (ls.getD i []).length then
    (r = ssize index ∧
      ls' = ls.set i ((ls.getD i []).take index ++ xs ++ (ls.getD i []).drop index)) ∨
    (r = NO_MEMORY ∧ ls' = ls ∧ (R ∨ xs = []))
  else
    r = BAD_INDEX ∧ ls' = ls

/-- What a call with result `r` makes of the lists. -/
def Effect (ls : List (List α)) : Call α → Int → List (List α) → Prop
  | .new, _, ls' => ls' = ls ++ [[]]
  | .copy j, _, ls' => ls' = ls ++ [ls.getD j []]
  | .assign i j, _, ls' => ls' = ls.set i (ls.getD j [])
  | .finish i, _, ls' => ls' = ls.set i []
  | .insertArrayAt i arg index, r, ls' => Inserted R ls i index (arg.values ls) r ls'
  | .insertVectorAt i j index, r, ls' => Inserted R ls i index (ls.getD j []) r ls'
  | .insertAt i (some arg) index n, r, ls' =>
    ∃ x, arg.values ls = [x] ∧ Inserted R ls i index (List.replicate n x) r ls'
  | .insertAt i none index n, r, ls' => ∃ xs : List α, xs.length = n ∧
    (T.HAS_TRIVIAL_CTOR = false → xs = List.replicate n T.value) ∧ Inserted R ls i index xs r ls'
  | .replaceAt i arg index, r, ls' =>
    if index < (ls.getD i []).length then
      ∃ x, arg.values ls = [x] ∧ r = ssize index ∧ ls' = ls.set i ((ls.getD i []).set index x)
    else
      r = BAD_INDEX ∧ ls' = ls
  | .removeItemsAt i index count, r, ls' =>
    if index + count ≤ (ls.getD i []).length then
      r = ssize index ∧ (ls' = ls.set i ((ls.getD i []).take index ++ (ls.getD i []).drop (index + count)) ∨
        (ls' = ls ∧ R))
    else
      r = BAD_VALUE ∧ ls' = ls
  | .clear i, _, ls' => ls' = ls.set i [] ∨ (ls' = ls ∧ R)
  | .setCapacity i n, r, ls' => ls' = ls ∧
    ((ls.getD i []).length < n → r = ssize n ∨ (r = NO_MEMORY ∧ R))
  | .resize i size, r, ls' =>
    (r = size ∧ ∃ xs : List α, xs.length = size - (ls.getD i []).length ∧
      (T.HAS_TRIVIAL_CTOR = false → xs = List.replicate (size - (ls.getD i []).length) T.value) ∧
      ls' = ls.set i ((ls.getD i []).take size ++ xs)) ∨
    (ls' = ls ∧ R)
  | .sort i cmp, r, ls' =>
    (r = NO_ERROR ∧ ls' = ls.set i (sorted cmp (ls.getD i []))) ∨ (r = NO_MEMORY ∧ ls' = ls ∧ R)

end

/-! ## The invariant -/

section

variable {P T} {h h' : Memory α} {os : List (Owner (SharedBuffer α))} {v : VectorImpl} {l : List α}
  {A : Prop}

/-- The vectors, each with its list, account for the memory. -/
structure Holding (P : Platform) (T : Traits α) (h : Memory α) (ps : List (VectorImpl × List α)) :
    Prop where
  owned : Owned h (ps.map fun q => own P T q.1 q.2)
  count : ∀ q ∈ ps, q.1.mCount = q.2.length
  null : ∀ q ∈ ps, q.1.mStorage = none → q.2 = []

/-- The world holds these lists. -/
def Denotes (P : Platform) (T : Traits α) (w : World α) (ls : List (List α)) : Prop :=
  ∃ ps, w.vectors = ps.map Prod.fst ∧ ls = ps.map Prod.snd ∧ Holding P T w.memory ps

/-- The owners beside vector `i`. -/
def others (P : Platform) (T : Traits α) (ps : List (VectorImpl × List α)) (i : Nat) :
    List (Owner (SharedBuffer α)) :=
  (ps.take i ++ ps.drop (i + 1)).map fun q => own P T q.1 q.2

variable {ps : List (VectorImpl × List α)} {i j : Nat}

theorem perm_others (P : Platform) (T : Traits α) (hi : i < ps.length) :
    (ps.map fun q => own P T q.1 q.2).Perm (own P T ps[i].1 ps[i].2 :: others P T ps i) := by
  have hsplit : ps = ps.take i ++ ps[i] :: ps.drop (i + 1) := by
    rw [List.getElem_cons_drop, List.take_append_drop]
  conv_lhs => rw [hsplit]
  exact (List.perm_middle (a := ps[i])).map _

/-- Looking at one vector. -/
theorem Holding.focus (hH : Holding P T h ps) (hi : i < ps.length) :
    Rep P T h ps[i].1 ps[i].2 (others P T ps i) where
  owned := hH.owned.perm (perm_others P T hi)
  count := hH.count _ (List.getElem_mem hi)
  null := hH.null _ (List.getElem_mem hi)

/-- One vector has changed, in its own way. -/
theorem Holding.update {v' : VectorImpl} {l' : List α} (hH : Holding P T h ps) (hi : i < ps.length)
    (hr : Rep P T h' v' l' (others P T ps i)) : Holding P T h' (ps.set i (v', l')) where
  owned := by
    refine hr.owned.perm ?_
    rw [List.set_eq_take_append_cons_drop, if_pos hi]
    exact ((List.perm_middle (a := (v', l'))).map fun q : VectorImpl × List α => own P T q.1 q.2).symm
  count := by
    intro q hq
    rcases List.mem_or_eq_of_mem_set hq with hq | rfl
    · exact hH.count q hq
    · exact hr.count
  null := by
    intro q hq
    rcases List.mem_or_eq_of_mem_set hq with hq | rfl
    · exact hH.null q hq
    · exact hr.null

/-- One more vector, beside those there are. -/
theorem Holding.append {v' : VectorImpl} {l' : List α} (hH : Holding P T h ps)
    (hr : Rep P T h' v' l' (ps.map fun q => own P T q.1 q.2)) : Holding P T h' (ps ++ [(v', l')]) where
  owned := by
    rw [List.map_append]
    exact hr.owned.perm (List.perm_append_singleton ..).symm
  count := by
    intro q hq
    rcases List.mem_append.mp hq with hq | hq
    · exact hH.count q hq
    · rw [List.mem_singleton.mp hq]
      exact hr.count
  null := by
    intro q hq
    rcases List.mem_append.mp hq with hq | hq
    · exact hH.null q hq
    · rw [List.mem_singleton.mp hq]
      exact hr.null

/-- Every other vector is among the others. -/
theorem own_mem_others (hj : j < ps.length) (hne : j ≠ i) :
    own P T ps[j].1 ps[j].2 ∈ others P T ps i := by
  refine List.mem_map_of_mem (f := fun q : VectorImpl × List α => own P T q.1 q.2) ?_
  rcases Nat.lt_or_gt_of_ne hne with hlt | hgt
  · exact List.mem_append_left _ (List.mem_take_iff_getElem.mpr ⟨j, by omega, rfl⟩)
  · refine List.mem_append_right _ (List.mem_drop_iff_getElem.mpr ⟨j - (i + 1), by omega, ?_⟩)
    congr 1
    omega

theorem contents_of_rep (hr : Rep P T h v l os) : contents h v = l := by
  obtain ⟨rfl, rfl, -⟩ | ⟨a, p, rfl, hp, hO⟩ := hr.cases
  · rfl
  · obtain ⟨spare, hs, -⟩ := hp.items
    show (h.cells a).elim [] _ = l
    rw [hO.pts_cell]
    show ((p.slots.take l.length).filterMap id) = l
    have hlen : (l.map some).length = l.length := List.length_map ..
    rw [hs, ← hlen, List.take_left]
    simp

/-- A world holds at most one family of lists: what is found in its memory. -/
theorem Denotes.items_eq {w : World α} {ls : List (List α)} (hd : Denotes P T w ls) : w.items = ls := by
  obtain ⟨ps, hv, rfl, hH⟩ := hd
  rw [World.items, hv, List.map_map]
  refine List.map_congr_left fun q hq => ?_
  obtain ⟨i, hi, rfl⟩ := List.mem_iff_getElem.mp hq
  exact contents_of_rep (hH.focus hi)

/-! ## One call -/

/-- A world with vector `i` in view. -/
structure View (P : Platform) (T : Traits α) (w : World α) (ls : List (List α)) (i : Nat)
    (v : VectorImpl) (l : List α) (os : List (Owner (SharedBuffer α))) : Prop where
  vector : w.vectors[i]? = some v
  list : ls.getD i [] = l
  rep : Rep P T w.memory v l os
  /-- Whatever the vector becomes, the world follows. -/
  update : ∀ h' v' l', Rep P T h' v' l' os → Denotes P T ⟨h', w.vectors.set i v'⟩ (ls.set i l')
  /-- A second vector with the same items may join the world. -/
  append : ∀ h', Rep P T h' v l (own P T v l :: os) → Denotes P T ⟨h', w.vectors ++ [v]⟩ (ls ++ [l])
  /-- The other vectors are owners of theirs. -/
  other : ∀ j, j < w.vectors.length → j ≠ i → ∃ u m, w.vectors[j]? = some u ∧ ls.getD j [] = m ∧
    own P T u m ∈ os ∧ u.mCount = m.length ∧ (u.mStorage = none → m = [])

variable {w : World α} {ls : List (List α)}

theorem Denotes.view (hd : Denotes P T w ls) (hi : i < w.vectors.length) :
    ∃ v l os, View P T w ls i v l os := by
  obtain ⟨ps, hv, rfl, hH⟩ := hd
  have hi' : i < ps.length := by rwa [hv, List.length_map] at hi
  have hget : ∀ j (hj : j < ps.length), (ps.map Prod.snd).getD j [] = ps[j].2 := by
    intro j hj
    rw [List.getD_eq_getElem?_getD, List.getElem?_map, List.getElem?_eq_getElem hj]
    rfl
  refine ⟨ps[i].1, ps[i].2, others P T ps i, ?_, hget i hi', hH.focus hi', ?_, ?_, ?_⟩
  · rw [hv, List.getElem?_map, List.getElem?_eq_getElem hi']
    rfl
  · intro h' v' l' hr
    refine ⟨ps.set i (v', l'), ?_, ?_, hH.update hi' hr⟩
    · rw [hv, List.map_set]
    · rw [List.map_set]
  · intro h' hr
    refine ⟨ps ++ [ps[i]], ?_, ?_, hH.append (hr.perm (perm_others P T hi').symm)⟩
    · rw [hv, List.map_append]
      rfl
    · rw [List.map_append]
      rfl
  · intro j hj hne
    have hj' : j < ps.length := by rwa [hv, List.length_map] at hj
    refine ⟨ps[j].1, ps[j].2, ?_, hget j hj', own_mem_others hj' hne, hH.count _ (List.getElem_mem hj'),
      hH.null _ (List.getElem_mem hj')⟩
    rw [hv, List.getElem?_map, List.getElem?_eq_getElem hj']
    rfl

variable {os' : List (Owner (SharedBuffer α))}

theorem View.size (hV : View P T w ls i v l os) : w.size i = l.length := by
  rw [World.size, hV.vector]
  exact hV.rep.count

/-- Nothing has changed for the vector in view: the lists are as they were. -/
theorem View.same (hV : View P T w ls i v l os) {h' : Memory α} {v' : VectorImpl}
    (hr : Rep P T h' v' l os) : Denotes P T ⟨h', w.vectors.set i v'⟩ ls := by
  have hset : ls.set i l = ls := by
    rw [← hV.list]
    apply List.ext_getElem?
    intro k
    rw [List.getElem?_set]
    by_cases hk : i = k
    · subst hk
      by_cases hlt : i < ls.length
      · rw [if_pos rfl, if_pos hlt, List.getD_eq_getElem?_getD, List.getElem?_eq_getElem hlt]
        rfl
      · rw [if_pos rfl, if_neg hlt, List.getElem?_eq_none (Nat.le_of_not_lt hlt)]
    · rw [if_neg hk]
  rw [← hset]
  exact hV.update _ _ _ hr

/-- What running a function on the vector in view needs. -/
theorem View.on {f : VectorImpl → M α (VectorImpl × Int)} {Q : Int → World α → Prop}
    (hV : View P T w ls i v l os)
    (hf : Ensures A (f v) (fun r h' => Q r.2 ⟨h', w.vectors.set i r.1⟩) w.memory) :
    Ensures A (on i f) Q w := by
  unfold Ensures at *
  unfold VectorImpl.on
  rw [hV.vector]
  dsimp only
  revert hf
  cases hres : f v w.memory with
  | returns r => exact id
  | aborts => exact id
  | undefined => exact id

theorem ensures_withVector {f : VectorImpl → Prog (World α) Int} {Q : Int → World α → Prop}
    {u : VectorImpl} (hu : w.vectors[j]? = some u) (hf : Ensures A (f u) Q w) :
    Ensures A (withVector j f) Q w := by
  unfold Ensures withVector at *
  rw [hu]
  exact hf

theorem ensures_push_back {p : M α VectorImpl} {Q : Int → World α → Prop}
    (hp : Ensures A p (fun v h' => Q 0 ⟨h', w.vectors ++ [v]⟩) w.memory) :
    Ensures A (push_back p) Q w := by
  unfold Ensures push_back at *
  revert hp
  cases p w.memory with
  | returns r => exact id
  | aborts => exact id
  | undefined => exact id

/-- The items of an argument that lies apart from vector `i`. -/
theorem View.supplies (hV : View P T w ls i v l os) {arg : Arg α} (ha : arg.Apart w i) :
    Supplies os (arg.src w) (arg.values ls) ∧ (arg.values ls).length = arg.length := by
  cases arg with
  | items xs => exact ⟨supplies_outside xs, rfl⟩
  | part j k n =>
    obtain ⟨hj, hne, hb⟩ := ha
    obtain ⟨u, m, hu, hm, hown, hcount, hnull⟩ := hV.other j hj hne
    have hb : k + n ≤ m.length := by
      rw [World.size, hu] at hb
      exact hcount ▸ hb
    refine ⟨?_, ?_⟩
    · show Supplies os ((w.vectors[j]?).elim _ _) (slice (ls.getD j []) k n)
      rw [hu, hm]
      exact supplies_array k n hown hnull hb
    · show (slice (ls.getD j []) k n).length = n
      rw [hm, slice, List.length_take, List.length_drop]
      omega

theorem View.movable (hV : View P T w ls i v l os) {index amount : Nat} (hm : MoveOk T w i index amount)
    (hw : index ≤ l.length) : Movable T l index amount := by
  intro h0
  refine (hm h0).imp_left fun hle => ?_
  rw [hV.size] at hle
  omega

/-- An insertion seen from the world. -/
theorem View.inserted (hV : View P T w ls i v l os) {index : Nat} {xs : List α} {r : VectorImpl × Int}
    {h' : Memory α} (hw : index ≤ l.length) (hI : Inserts P T os v.mStorage l index (capOf T w.memory v) xs r h') :
    ∃ ls', Inserted (Refused P) ls i index xs r.2 ls' ∧ Denotes P T ⟨h', w.vectors.set i r.1⟩ ls' := by
  obtain ⟨hr, hrep, -⟩ | ⟨hr, hrep, hwhy⟩ := hI
  · refine ⟨ls.set i (l.take index ++ xs ++ l.drop index), ?_, hV.update _ _ _ hrep⟩
    rw [Inserted, hV.list, if_pos hw]
    exact .inl ⟨hr, rfl⟩
  · refine ⟨ls, ?_, hV.same hrep⟩
    rw [Inserted, hV.list, if_pos hw]
    exact .inr ⟨hr, rfl, hwhy.imp_right And.left⟩

theorem View.bad_index (hV : View P T w ls i v l os) {index : Nat} (xs : List α)
    (hw : ¬ index ≤ l.length) :
    ∃ ls', Inserted (Refused P) ls i index xs BAD_INDEX ls' ∧ Denotes P T ⟨w.memory, w.vectors.set i v⟩ ls' := by
  refine ⟨ls, ?_, hV.same hV.rep⟩
  rw [Inserted, hV.list, if_neg hw]
  exact ⟨rfl, rfl⟩

/-- What a call ensures: its effect on the lists, and no stop but for want of memory. -/
def Meets (P : Platform) (T : Traits α) (w : World α) (ls : List (List α)) (c : Call α) : Prop :=
  Ensures (Exhausted P T (c.room w)) (call P T c)
    (fun r w' => ∃ ls', Effect T (Refused P) ls c r ls' ∧ Denotes P T w' ls') w

/-- An owner of a list of owners, brought to the front. -/
theorem exists_perm_of_mem {o : Owner (SharedBuffer α)} (ho : o ∈ os) : ∃ os', os.Perm (o :: os') := by
  obtain ⟨s, t, rfl⟩ := List.append_of_mem ho
  exact ⟨s ++ t, List.perm_middle⟩

theorem new_meets (hd : Denotes P T w ls) : Meets P T w ls .new := by
  obtain ⟨ps, hv, rfl, hH⟩ := hd
  refine ensures_push_back (ensures_pure ⟨_, rfl, ps ++ [(VectorImpl.new, [])], ?_, ?_,
    hH.append (Rep.of_none hH.owned rfl)⟩)
  · rw [hv, List.map_append]
    rfl
  · rw [List.map_append]
    rfl

theorem copy_meets (hd : Denotes P T w ls) (hc : Allowed T w (.copy j)) : Meets P T w ls (.copy j) := by
  obtain ⟨v, l, os, hV⟩ := hd.view hc
  refine ensures_withVector hV.vector (ensures_push_back ((copy_spec hV.rep).mono ?_))
  rintro _ h' ⟨rfl, hrep⟩
  exact ⟨_, rfl, hV.list.symm ▸ hV.append h' hrep⟩

theorem assign_meets (hd : Denotes P T w ls) (hc : Allowed T w (.assign i j)) :
    Meets P T w ls (.assign i j) := by
  obtain ⟨hi, hj⟩ := hc
  obtain ⟨v, l, os, hV⟩ := hd.view hi
  by_cases hij : j = i
  · subst hij
    refine ensures_withVector hV.vector (hV.on ?_)
    rw [decide_eq_true rfl]
    refine ensures_bind (ensures_pure (ensures_pure ⟨_, rfl, ?_⟩))
    rw [hV.list]
    exact hV.update _ _ _ hV.rep
  · obtain ⟨u, m, hu, hm, hown, hcount, hnull⟩ := hV.other j hj hij
    obtain ⟨os', hp⟩ := exists_perm_of_mem hown
    refine ensures_withVector hu (hV.on ?_)
    rw [decide_eq_false (Ne.symm hij)]
    refine ensures_bind ((assign_spec (hV.rep.perm hp) hcount hnull).mono fun v' h' hr => ensures_pure ?_)
    exact ⟨_, rfl, hm ▸ hV.update _ _ _ (hr.perm hp.symm)⟩

theorem finish_meets (hd : Denotes P T w ls) (hc : Allowed T w (.finish i)) :
    Meets P T w ls (.finish i) := by
  obtain ⟨v, l, os, hV⟩ := hd.view hc
  refine hV.on (ensures_bind ((finish_vector_spec hV.rep).mono fun v' h' hr => ensures_pure ?_))
  exact ⟨_, rfl, hV.update _ _ _ hr.2⟩

theorem insertArrayAt_meets {arg : Arg α} {index : Nat} (hd : Denotes P T w ls)
    (hc : Allowed T w (.insertArrayAt i arg index)) : Meets P T w ls (.insertArrayAt i arg index) := by
  obtain ⟨hi, hap, hm⟩ := hc
  obtain ⟨v, l, os, hV⟩ := hd.view hi
  obtain ⟨hsup, hlen⟩ := hV.supplies hap
  refine hV.on ?_
  by_cases hw : index ≤ l.length
  · have hmov : Movable T l index (arg.values ls).length := hV.movable (hlen ▸ hm) hw
    rw [← hlen]
    refine (insertArrayAt_spec hV.rep hw hsup hmov fun he => ?_).mono fun r h' hI => hV.inserted hw hI
    show Exhausted P T (w.size i + arg.length)
    rw [hV.size, ← hlen]
    exact he
  · exact insertArrayAt_bad_index (by rw [hV.rep.count]; omega) (hV.bad_index _ hw)

theorem insertVectorAt_meets {index : Nat} (hd : Denotes P T w ls)
    (hc : Allowed T w (.insertVectorAt i j index)) : Meets P T w ls (.insertVectorAt i j index) := by
  obtain ⟨hi, hj, hji, hm⟩ := hc
  obtain ⟨v, l, os, hV⟩ := hd.view hi
  obtain ⟨u, m, hu, hm', hown, hcount, hnull⟩ := hV.other j hj hji
  have hsize : w.size j = m.length := by
    rw [World.size, hu]
    exact hcount
  refine ensures_withVector hu (hV.on ?_)
  rw [insertVectorAt, hcount]
  by_cases hw : index ≤ l.length
  · have hsup := supplies_array (P := P) (T := T) 0 m.length hown hnull (by omega)
    rw [slice, List.drop_zero, List.take_length] at hsup
    have hmov : Movable T l index m.length := hV.movable (hsize ▸ hm) hw
    refine (insertArrayAt_spec hV.rep hw hsup hmov fun he => ?_).mono fun r h' hI => ?_
    · show Exhausted P T (w.size i + w.size j)
      rw [hV.size, hsize]
      exact he
    · show ∃ ls', Inserted (Refused P) ls i index (ls.getD j []) r.2 ls' ∧ _
      rw [hm']
      exact hV.inserted hw hI
  · exact insertArrayAt_bad_index (by rw [hV.rep.count]; omega) (hV.bad_index _ hw)

theorem insertAt_meets {item : Option (Arg α)} {index n : Nat} (hd : Denotes P T w ls)
    (hc : Allowed T w (.insertAt i item index n)) : Meets P T w ls (.insertAt i item index n) := by
  obtain ⟨hi, hm, harg⟩ := hc
  obtain ⟨v, l, os, hV⟩ := hd.view hi
  have hroom : Exhausted P T (l.length + n) → Exhausted P T (w.size i + n) := by
    rw [hV.size]
    exact id
  refine hV.on ?_
  cases item with
  | none =>
    by_cases hw : index ≤ l.length
    · refine (insertAt_construct_spec hV.rep hw (hV.movable hm hw) hroom).mono ?_
      rintro r h' ⟨xs, hx, hval, hI⟩
      obtain ⟨ls', hins, hd'⟩ := hV.inserted hw hI
      exact ⟨ls', ⟨xs, hx, hval, hins⟩, hd'⟩
    · refine insertAt_bad_index (by rw [hV.rep.count]; omega) ?_
      obtain ⟨ls', hins, hd'⟩ := hV.bad_index (List.replicate n T.value) hw
      exact ⟨ls', ⟨_, List.length_replicate, fun _ => rfl, hins⟩, hd'⟩
  | some arg =>
    obtain ⟨hap, hone⟩ := harg arg rfl
    obtain ⟨hsup, hlen⟩ := hV.supplies hap
    obtain ⟨x, hx⟩ := List.length_eq_one_iff.mp (hlen.trans hone)
    rw [hx] at hsup
    by_cases hw : index ≤ l.length
    · refine (insertAt_spec hV.rep hw (fun _ => hsup) (hV.movable hm hw) hroom).mono fun r h' hI => ?_
      obtain ⟨ls', hins, hd'⟩ := hV.inserted hw hI
      exact ⟨ls', ⟨x, hx, hins⟩, hd'⟩
    · refine insertAt_bad_index (by rw [hV.rep.count]; omega) ?_
      obtain ⟨ls', hins, hd'⟩ := hV.bad_index (List.replicate n x) hw
      exact ⟨ls', ⟨x, hx, hins⟩, hd'⟩

theorem replaceAt_meets {item : Arg α} {index : Nat} (hd : Denotes P T w ls)
    (hc : Allowed T w (.replaceAt i item index)) : Meets P T w ls (.replaceAt i item index) := by
  obtain ⟨hi, hap, hone⟩ := hc
  obtain ⟨v, l, os, hV⟩ := hd.view hi
  obtain ⟨hsup, hlen⟩ := hV.supplies hap
  obtain ⟨x, hx⟩ := List.length_eq_one_iff.mp (hlen.trans hone)
  rw [hx] at hsup
  refine hV.on ?_
  by_cases hw : index < l.length
  · refine (replaceAt_spec hV.rep hw hsup Or.inl).mono fun r h' hr => ?_
    refine ⟨ls.set i (l.set index x), ?_, hV.update _ _ _ hr.2⟩
    rw [Effect, hV.list, if_pos hw]
    exact ⟨x, hx, hr.1, rfl⟩
  · refine replaceAt_bad_index (by rw [hV.rep.count]; omega) ⟨ls, ?_, hV.same hV.rep⟩
    rw [Effect, hV.list, if_neg hw]
    exact ⟨rfl, rfl⟩

/-- A removal seen from the world. -/
theorem View.removed (hV : View P T w ls i v l os) {index count : Nat} {v' : VectorImpl} {h' : Memory α}
    {cap : Nat} (hR : Removes P T os v.mStorage l index count cap v' h') : ∃ ls', (ls' = ls.set i (l.take index ++ l.drop (index + count)) ∨
      (ls' = ls ∧ Refused P)) ∧ Denotes P T ⟨h', w.vectors.set i v'⟩ ls' := by
  obtain ⟨hrep, -⟩ | ⟨hrep, href⟩ := hR
  · exact ⟨_, .inl rfl, hV.update _ _ _ hrep⟩
  · exact ⟨ls, .inr ⟨rfl, href⟩, hV.same hrep⟩

theorem removeItemsAt_meets {index count : Nat} (hd : Denotes P T w ls)
    (hc : Allowed T w (.removeItemsAt i index count)) : Meets P T w ls (.removeItemsAt i index count) := by
  obtain ⟨hi, hm, h32⟩ := hc
  obtain ⟨v, l, os, hV⟩ := hd.view hi
  refine hV.on ?_
  by_cases hw : index + count ≤ l.length
  · refine (removeItemsAt_spec hV.rep hw (hV.movable hm (by omega)) id).mono fun r h' hr => ?_
    obtain ⟨ls', hls, hd'⟩ := hV.removed hr.2
    refine ⟨ls', ?_, hd'⟩
    rw [Effect, hV.list, if_pos hw]
    exact ⟨hr.1, hls⟩
  · refine removeItemsAt_bad_value (by rw [hV.rep.count]; omega) h32 ⟨ls, ?_, hV.same hV.rep⟩
    rw [Effect, hV.list, if_neg hw]
    exact ⟨rfl, rfl⟩

theorem clear_meets (hd : Denotes P T w ls) (hc : Allowed T w (.clear i)) : Meets P T w ls (.clear i) := by
  obtain ⟨hi, hm⟩ := hc
  obtain ⟨v, l, os, hV⟩ := hd.view hi
  rw [hV.size] at hm
  refine hV.on (ensures_bind ((clear_spec hV.rep (hV.movable hm (Nat.zero_le _)) id).mono ?_))
  rintro v' h' (hrep | ⟨hrep, href⟩)
  · exact ensures_pure ⟨_, .inl rfl, hV.update _ _ _ hrep⟩
  · exact ensures_pure ⟨ls, .inr ⟨rfl, href⟩, hV.same hrep⟩

theorem setCapacity_meets {n : Nat} (hd : Denotes P T w ls) (hc : Allowed T w (.setCapacity i n)) :
    Meets P T w ls (.setCapacity i n) := by
  obtain ⟨v, l, os, hV⟩ := hd.view hc
  refine hV.on ((setCapacity_spec hV.rep id).mono fun r h' hr => ⟨ls, ⟨rfl, fun hlt => ?_⟩, hV.same hr.1⟩)
  rw [hV.list] at hlt
  have hres := hr.2
  change if n ≤ l.length then _ else _ at hres
  rw [if_neg (Nat.not_le.mpr hlt)] at hres
  exact hres.imp_left And.left

theorem resize_meets {size : Nat} (hd : Denotes P T w ls) (hc : Allowed T w (.resize i size)) :
    Meets P T w ls (.resize i size) := by
  obtain ⟨hi, h31⟩ := hc
  obtain ⟨v, l, os, hV⟩ := hd.view hi
  refine hV.on ((resize_spec hV.rep h31 id).mono ?_)
  rintro r h' (⟨hr, xs, hx, hval, hrep⟩ | ⟨hrep, href⟩)
  · refine ⟨ls.set i (l.take size ++ xs), .inl ⟨hr, xs, ?_, ?_, ?_⟩, hV.update _ _ _ hrep⟩
    · rw [hV.list, hx]
    · rw [hV.list]
      exact hval
    · rw [hV.list]
  · exact ⟨ls, .inr ⟨rfl, href⟩, hV.same hrep⟩

theorem sort_meets {cmp : α → α → Int} (hd : Denotes P T w ls) (hc : Allowed T w (.sort i cmp)) :
    Meets P T w ls (.sort i cmp) := by
  obtain ⟨hi, h31⟩ := hc
  obtain ⟨v, l, os, hV⟩ := hd.view hi
  rw [hV.size] at h31
  refine hV.on ((sort_spec hV.rep h31 Or.inl).mono ?_)
  rintro r h' (⟨hr, hrep, -⟩ | ⟨hr, hrep, href, -⟩)
  · refine ⟨ls.set i (sorted cmp l), .inl ⟨hr, ?_⟩, hV.update _ _ _ hrep⟩
    rw [hV.list]
  · exact ⟨ls, .inr ⟨hr, rfl, href⟩, hV.same hrep⟩

/-- **One call**, in any world that holds lists. -/
theorem call_meets {c : Call α} (hd : Denotes P T w ls) (hc : Allowed T w c) : Meets P T w ls c := by
  cases c with
  | new => exact new_meets hd
  | copy j => exact copy_meets hd hc
  | assign i j => exact assign_meets hd hc
  | finish i => exact finish_meets hd hc
  | insertArrayAt i arg index => exact insertArrayAt_meets hd hc
  | insertVectorAt i j index => exact insertVectorAt_meets hd hc
  | insertAt i item index n => exact insertAt_meets hd hc
  | replaceAt i item index => exact replaceAt_meets hd hc
  | removeItemsAt i index count => exact removeItemsAt_meets hd hc
  | clear i => exact clear_meets hd hc
  | setCapacity i n => exact setCapacity_meets hd hc
  | resize i size => exact resize_meets hd hc
  | sort i cmp => exact sort_meets hd hc

/-! ### Refusals -/

theorem Inserted.mono {R R' : Prop} (hR : R → R') {ls ls' : List (List α)} {i index : Nat} {xs : List α}
    {r : Int} (hI : Inserted R ls i index xs r ls') : Inserted R' ls i index xs r ls' := by
  unfold Inserted at hI ⊢
  by_cases hw : index ≤ (ls.getD i []).length
  · rw [if_pos hw] at hI ⊢
    exact hI.imp_right fun hno => ⟨hno.1, hno.2.1, hno.2.2.imp_left hR⟩
  · rw [if_neg hw] at hI ⊢
    exact hI

theorem Effect.mono {R R' : Prop} (hR : R → R') {ls ls' : List (List α)} {c : Call α} {r : Int}
    (he : Effect T R ls c r ls') : Effect T R' ls c r ls' := by
  cases c with
  | new | copy | assign | finish | replaceAt => exact he
  | insertArrayAt | insertVectorAt => exact Inserted.mono hR he
  | insertAt i item index n =>
    cases item with
    | none =>
      obtain ⟨xs, hx, hval, hI⟩ := he
      exact ⟨xs, hx, hval, hI.mono hR⟩
    | some arg =>
      obtain ⟨x, hx, hI⟩ := he
      exact ⟨x, hx, hI.mono hR⟩
  | removeItemsAt i index count =>
    rw [Effect] at he ⊢
    by_cases hw : index + count ≤ (ls.getD i []).length
    · rw [if_pos hw] at he ⊢
      exact ⟨he.1, he.2.imp_right (And.imp_right hR)⟩
    · rw [if_neg hw] at he ⊢
      exact he
  | clear => exact he.imp_right (And.imp_right hR)
  | setCapacity => exact ⟨he.1, fun hlt => (he.2 hlt).imp_right (And.imp_right hR)⟩
  | resize => exact he.imp_right (And.imp_right hR)
  | sort => exact he.imp_right fun hno => ⟨hno.1, hno.2.1, hR hno.2.2⟩

/-- What a vector holds does not depend on what the machine refuses. -/
theorem own_generous : own P.generous T = own P T := by
  have hsees : ∀ (l : List α) p, Holds P.generous T l p ↔ Holds P T l p :=
    fun l p => ⟨fun hp => ⟨hp.fits, hp.size, hp.items⟩, fun hp => ⟨hp.fits, hp.size, hp.items⟩⟩
  exact funext fun v => funext fun l =>
    congrArg (Owner.mk v.mStorage) (funext fun p => propext (hsees l p))

theorem denotes_generous : Denotes P.generous T w ls ↔ Denotes P T w ls := by
  unfold Denotes
  constructor
  · rintro ⟨ps, hv, hls, hH⟩
    exact ⟨ps, hv, hls, own_generous ▸ hH.owned, hH.count, hH.null⟩
  · rintro ⟨ps, hv, hls, hH⟩
    exact ⟨ps, hv, hls, own_generous.symm ▸ hH.owned, hH.count, hH.null⟩

/-- **One call**, which is excused only by a refusal it meets with itself. -/
theorem call_effect {c : Call α} (hd : Denotes P T w ls) (hc : Allowed T w c) :
    Ensures (RefusedIn P (fun P => call P T c) w ∨ Oversize P T (c.room w)) (call P T c)
      (fun r w' => ∃ ls', Effect T (RefusedIn P (fun P => call P T c) w) ls c r ls' ∧ Denotes P T w' ls')
      w := by
  refine ensures_refusedIn (Q := fun R r w' => ∃ ls', Effect T R ls c r ls' ∧ Denotes P T w' ls') ?_
    (call_meets hd hc) ((call_meets (denotes_generous.mpr hd) hc).mono ?_)
  · rintro R R' hR r w' ⟨ls', he, hd'⟩
    exact ⟨ls', he.mono hR, hd'⟩
  · rintro r w' ⟨ls', he, hd'⟩
    exact ⟨ls', he, denotes_generous.mp hd'⟩

/-! ## Runs -/

/-- The world holds some lists. -/
def Sound (P : Platform) (T : Traits α) (w : World α) : Prop := ∃ ls, Denotes P T w ls

theorem sound_empty : Sound P T (World.empty : World α) :=
  ⟨[], [], rfl, rfl, Owned.empty, fun _ hq => absurd hq List.not_mem_nil, fun _ hq => absurd hq List.not_mem_nil⟩

theorem sound_step {c : Call α} {w' : World α} (hs : Sound P T w) (hc : Allowed T w c)
    (hstep : step P T w c = some w') : Sound P T w' := by
  obtain ⟨ls, hd⟩ := hs
  have hm := call_meets hd hc
  unfold step at hstep
  cases hcall : call P T c w with
  | returns r =>
    rw [hcall] at hstep
    cases hstep
    obtain ⟨ls', -, hd'⟩ := hm.returns hcall
    exact ⟨ls', hd'⟩
  | aborts =>
    rw [hcall] at hstep
    cases hstep
  | undefined =>
    rw [hcall] at hstep
    cases hstep

theorem sound_of_run {P : Platform} {T : Traits α} {w : World α}
    (hrun : Run (step P T) (Allowed T) World.empty w) : Sound P T w :=
  hrun.inv sound_empty fun _ _ _ hs hc hstep => sound_step hs hc hstep

/-- **Vectors are values.**  In every run of admitted calls on any number of vectors, however they
    share their buffers, a call changes the list of its own vector as its name says and no other; it
    does nothing undefined.  It may stop the process, or leave its list as it was, only where it is
    refused memory itself; and stop it where no memory would be large enough. -/
theorem vectors_are_values {P : Platform} {T : Traits α} {w : World α}
    (hrun : Run (step P T) (Allowed T) World.empty w) {c : Call α} (hc : Allowed T w c) :
    Ensures (RefusedIn P (fun P => call P T c) w ∨ Oversize P T (c.room w)) (call P T c)
      (fun r w' => Effect T (RefusedIn P (fun P => call P T c) w) w.items c r w'.items) w := by
  obtain ⟨ls, hd⟩ := sound_of_run hrun
  refine Ensures.mono (call_effect hd hc) ?_
  rintro r w' ⟨ls', heff, hd'⟩
  rw [hd.items_eq, hd'.items_eq]
  exact heff

/-- Two vectors that share a buffer of two items. -/
def sharing : List (Call Nat) := [.new, .insertAt 0 (some (.items [7])) 0 2, .copy 0]

theorem sharing_admitted : Admits (step ample numbers) (Allowed numbers) World.empty sharing := by
  refine ⟨trivial, ⟨by decide, fun h => absurd h (by decide), ?_⟩, Nat.zero_lt_one, trivial⟩
  rintro _ ⟨⟩
  exact ⟨trivial, rfl⟩

theorem vectors_are_values_sharing : ∃ w, exec (step ample numbers) World.empty sharing = some w ∧
    w.items = [[7, 7], [7, 7]] ∧
    Ensures (RefusedIn ample (fun P => call P numbers (.replaceAt 1 (.items [9]) 0)) w ∨
        Oversize ample numbers 0) (call ample numbers (.replaceAt 1 (.items [9]) 0))
      (fun r w' => Effect numbers (RefusedIn ample (fun P => call P numbers (.replaceAt 1 (.items [9]) 0)) w)
        w.items (.replaceAt 1 (.items [9]) 0) r w'.items) w :=
  ⟨_, rfl, rfl, vectors_are_values (run_of_exec _ _ _ sharing sharing_admitted rfl)
    (show Allowed numbers _ (.replaceAt 1 (.items [9]) 0) from ⟨by decide, trivial, rfl⟩)⟩

/-- **No buffer leaks, and none is freed in use.**  In every run the count of a buffer is the number of
    vectors that share it, it lives exactly as long as there is one, and it holds as many items as each
    of its vectors counts and beyond them nothing that would still have to be destroyed. -/
theorem buffers_are_counted {P : Platform} {T : Traits α} {w : World α}
    (hrun : Run (step P T) (Allowed T) World.empty w) :
    (∀ a, count w.memory a = w.vectors.countP fun v => v.mStorage = some a) ∧
    (∀ a, w.memory.cells a ≠ none ↔ ∃ v ∈ w.vectors, v.mStorage = some a) ∧
    ∀ v ∈ w.vectors, v.mCount = (contents w.memory v).length ∧
      ∀ a c, v.mStorage = some a → w.memory.cells a = some c →
        Holds P T (contents w.memory v) c.payload := by
  obtain ⟨ls, ps, hv, -, hH⟩ := sound_of_run hrun
  refine ⟨fun a => ?_, fun a => ?_, fun v hvm => ?_⟩
  · rw [hH.owned.counted a, holders, List.countP_map, hv, List.countP_map]
    rfl
  · rw [hH.owned.live_iff, hv]
    constructor
    · rintro ⟨o, ho, hoa⟩
      obtain ⟨q, hq, rfl⟩ := List.mem_map.mp ho
      exact ⟨q.1, List.mem_map_of_mem hq, hoa⟩
    · rintro ⟨v, hvm, hva⟩
      obtain ⟨q, hq, rfl⟩ := List.mem_map.mp hvm
      exact ⟨_, List.mem_map_of_mem hq, hva⟩
  · rw [hv] at hvm
    obtain ⟨q, hq, rfl⟩ := List.mem_map.mp hvm
    obtain ⟨i, hi, rfl⟩ := List.mem_iff_getElem.mp hq
    rw [contents_of_rep (hH.focus hi)]
    exact ⟨hH.count _ hq, fun a c hst hc => hH.owned.seen _ (List.mem_map_of_mem hq) a c hst hc⟩

theorem buffers_are_counted_sharing : ∃ w, exec (step ample numbers) World.empty sharing = some w ∧
    count w.memory 0 = 2 ∧
    (∀ a, w.memory.cells a ≠ none ↔ ∃ v ∈ w.vectors, v.mStorage = some a) :=
  ⟨_, rfl, rfl, (buffers_are_counted (run_of_exec _ _ _ sharing sharing_admitted rfl)).2.1⟩

end

end Codina.Utils.VectorImpl
