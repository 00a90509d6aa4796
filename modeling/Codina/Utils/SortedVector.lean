/-
  `SortedVectorImpl`: a vector kept in ascending order, searched by halving.

  The search returns where the item is, or else where it belongs; `add` replaces it there or inserts
  it, `remove` takes it out, `merge` adds the items of another vector one by one.  So each function is
  one of an ordered list: `put`, `erase`, `putAll`.

  Merging two sorted vectors has two short cuts: a vector that ends before the other begins is inserted
  in front of it as a whole, and one that begins behind it is appended.  Both let an item through that
  equals its neighbour, and both read the first and the last item of a vector that may have none.
-/
import Codina.Lib.OrderedList
import Codina.Utils.VectorSort

namespace Codina.Utils.SortedVectorImpl

open Codina.Faults Codina.Faults.Prog Codina.Refcount Codina.Slots Codina.OrderedList
open Codina.Utils.SharedBuffer Codina.Utils.VectorImpl

variable {α : Type} (P : Platform) (T : Traits α) (do_compare : α → α → Int)

/-! ## The program -/

def NAME_NOT_FOUND : Int := -2

/-- The item a pointer leads to. -/
def readAt (item : Src α) : M α α := do
  match ← fetch item 1 with
  | [some x] => return x
  | _ => fault

/-- The item at a location that may be null. -/
def readLocation : Option (Nat × Nat) → M α α
  | some (a, i) => readAt (.inside a i)
  | none => fault

/-- `size() - 1`. -/
def lastIndex (this : VectorImpl) : Nat := (this.mCount + 0xFFFFFFFF) % 0x100000000

/-- The loop of `_indexOrderOf`.  Returns `err` and `l`. -/
def search (this : VectorImpl) (item : Src α) (l h : Int) : M α (Int × Int) :=
  if l ≤ h then do
    let curr ← readAt (array this (l + (h - l) / 2).toNat)
    let x ← readAt item
    if do_compare curr x = 0 then
      return (l + (h - l) / 2, l + (h - l) / 2)
    else if do_compare curr x < 0 then
      search this item (l + (h - l) / 2 + 1) h
    else
      search this item l (l + (h - l) / 2 - 1)
  else
    return (NAME_NOT_FOUND, l)
termination_by (h + 1 - l).toNat

def _indexOrderOf (this : VectorImpl) (item : Src α) : M α (Int × Int) :=
  search do_compare this item 0 (ssize (lastIndex this))

def indexOf (this : VectorImpl) (item : Src α) : M α Int := do
  let (index, _) ← _indexOrderOf do_compare this item
  return index

def orderOf (this : VectorImpl) (item : Src α) : M α Int := do
  let (_, order) ← _indexOrderOf do_compare this item
  return order

def add (this : VectorImpl) (item : Src α) : M α (VectorImpl × Int) := do
  let (index, order) ← _indexOrderOf do_compare this item
  if index < 0 then
    insertAt P T this (some item) order.toNat 1
  else
    replaceAt P T this (some item) index.toNat

/-- The loop of `merge` from item `i` on, `left` of them to go. -/
def mergeFrom (vector : VectorImpl) : (left i : Nat) → VectorImpl → M α (VectorImpl × Int)
  | 0, _, this => return (this, NO_ERROR)
  | left + 1, i, this => do
    let (this, err) ← add P T do_compare this (array vector i)
    if err < 0 then
      return (this, err)
    else
      mergeFrom vector left (i + 1) this

def merge (this vector : VectorImpl) : M α (VectorImpl × Int) :=
  if vector.mCount ≠ 0 then
    mergeFrom P T do_compare vector vector.mCount 0 this
  else
    return (this, NO_ERROR)

/-- `merge` of a vector that is sorted too. -/
def mergeSorted (this vector : VectorImpl) : M α (VectorImpl × Int) :=
  if vector.mCount ≠ 0 then do
    let last ← itemLocation T vector (lastIndex vector)
    let x ← readLocation last
    let y ← readAt (array this 0)
    if do_compare x y ≤ 0 then
      insertVectorAt P T this vector 0
    else
      let x ← readAt (array vector 0)
      let last ← itemLocation T this (lastIndex this)
      let y ← readLocation last
      if 0 ≤ do_compare x y then
        appendVector P T this vector
      else
        merge P T do_compare this vector
  else
    return (this, NO_ERROR)

def remove (this : VectorImpl) (item : Src α) : M α (VectorImpl × Int) := do
  let i ← indexOf do_compare this item
  if 0 ≤ i then
    let (v, _) ← removeItemsAt P T this i.toNat 1
    return (v, i)
  else
    return (this, i)

/-! ## Searching -/

variable {P T do_compare} {h : Memory α} {os : List (Owner (SharedBuffer α))} {v : VectorImpl}
  {l : List α} {A : Prop} {x : α} {item : Src α}

theorem readAt_spec {src : Src α} {Q : α → Memory α → Prop}
    (hf : fetch src 1 h = .returns ([some x], h)) (hq : Q x h) : Ensures A (readAt src) Q h :=
  ensures_bind (ensures_fetch hf hq)

/-- An item of a vector's own. -/
theorem readAt_array {os' : List (Owner (SharedBuffer α))} {i : Nat} {Q : α → Memory α → Prop}
    (hO : Owned h os') (ho : own P T v l ∈ os') (hnull : v.mStorage = none → l = []) (hi : i < l.length)
    (hq : Q l[i] h) : Ensures A (readAt (array v i)) Q h := by
  have hone : slice l i 1 = [l[i]] := by
    rw [slice, List.drop_eq_getElem_cons hi, List.take_succ_cons, List.take_zero]
  have hf := fetch_array i 1 hO ho hnull hi
  rw [hone] at hf
  exact readAt_spec hf hq

/-- What a search finds out: the list is cut at the item's kind. -/
def Located (cmp : α → α → Int) (l : List α) (x : α) (r : Int × Int) : Prop :=
  ∃ k : Nat, k ≤ l.length ∧ r.2 = k ∧ (∀ y ∈ l.take k, cmp y x < 0) ∧
    ((r.1 = NAME_NOT_FOUND ∧ ∀ y ∈ l.drop k, 0 < cmp y x) ∨
      (r.1 = k ∧ ∃ hk : k < l.length, cmp l[k] x = 0 ∧ ∀ y ∈ l.drop (k + 1), 0 < cmp y x))

/-- The loop, between the items known to be below and those known to be above. -/
theorem search_spec (hc : Compares do_compare) (hr : Rep P T h v l os) (ha : Ascending do_compare l)
    (hx : Supplies os item [x]) : ∀ (n lo hi : Nat), hi - lo ≤ n → lo ≤ hi → hi ≤ l.length →
      (∀ y ∈ l.take lo, do_compare y x < 0) → (∀ y ∈ l.drop hi, 0 < do_compare y x) →
      Ensures A (search do_compare v item lo ((hi : Int) - 1))
        (fun r h' => h' = h ∧ Located do_compare l x r) h := by
  intro n
  induction n with
  | zero =>
    intro lo hi hn hle hlen hbelow habove
    have heq : lo = hi := by omega
    subst heq
    rw [search, if_neg (by omega)]
    exact ensures_pure ⟨rfl, lo, hlen, rfl, hbelow, .inl ⟨rfl, habove⟩⟩
  | succ n ih =>
    intro lo hi hn hle hlen hbelow habove
    by_cases hlt : lo < hi
    · obtain ⟨mid, hmid, hlo, hhi⟩ : ∃ mid : Nat, (lo : Int) + ((hi : Int) - 1 - lo) / 2 = mid ∧
          lo ≤ mid ∧ mid < hi := ⟨lo + (hi - 1 - lo) / 2, by omega, by omega, by omega⟩
      have hml : mid < l.length := Nat.lt_of_lt_of_le hhi hlen
      rw [search, if_pos (by omega), hmid, Int.toNat_natCast]
      refine ensures_bind (readAt_array hr.owned List.mem_cons_self hr.null hml ?_)
      refine ensures_bind (readAt_spec (hx.fetched h _ hr.owned) ?_)
      refine ensures_ite (fun heq => ?_) fun hne => ensures_ite (fun hsmall => ?_) fun hlarge => ?_
      · exact ensures_pure ⟨rfl, mid, hml.le, rfl, (ha.take_below hc hml heq.le).1,
          .inr ⟨rfl, hml, heq, (ha.drop_above hc hml heq.ge).1⟩⟩
      · have hnext := ih (mid + 1) hi (by omega) hhi hlen ((ha.take_below hc hml hsmall.le).2 hsmall) habove
        exact hnext
      · have hgreat : 0 < do_compare l[mid] x := by omega
        have hnext := ih lo mid (by omega) hlo hml.le hbelow ((ha.drop_above hc hml hgreat.le).2 hgreat)
        exact hnext
    · exact ih lo hi (by omega) hle hlen hbelow habove

theorem lastIndex_eq (hr : Rep P T h v l os) (hne : l ≠ []) : lastIndex v = l.length - 1 := by
  have h32 := hr.length_lt
  have hpos := List.length_pos_iff.mpr hne
  rw [lastIndex, hr.count]
  omega

/-- **`_indexOrderOf`** leaves everything as it is, and finds the item's place. -/
theorem _indexOrderOf_spec (hc : Compares do_compare) (hr : Rep P T h v l os) (ha : Ascending do_compare l)
    (hx : Supplies os item [x]) (h31 : l.length < 0x80000000) :
    Ensures A (_indexOrderOf do_compare v item) (fun r h' => h' = h ∧ Located do_compare l x r) h := by
  have hlast : ssize (lastIndex v) = (l.length : Int) - 1 := by
    by_cases hnil : l = []
    · subst hnil
      rw [lastIndex, hr.count]
      show ssize ((0 + 0xFFFFFFFF) % 0x100000000) = -1
      decide
    · have hpos := List.length_pos_iff.mpr hnil
      rw [lastIndex_eq hr hnil, ssize_of_lt (by omega)]
      omega
  rw [_indexOrderOf, hlast]
  exact search_spec hc hr ha hx l.length 0 l.length (by omega) (Nat.zero_le _) (Nat.le_refl _)
    (fun y hy => absurd hy (by rw [List.take_zero]; exact List.not_mem_nil))
    (fun y hy => absurd hy (by rw [List.drop_length]; exact List.not_mem_nil))

/-- What was found, in terms of the map. -/
theorem Located.cases {r : Int × Int} (hl : Located do_compare l x r) :
    (∃ hk : order do_compare x l < l.length, r = ((order do_compare x l : Int), (order do_compare x l : Int)) ∧
      lookup do_compare x l = some l[order do_compare x l] ∧
      put do_compare x l = l.set (order do_compare x l) x ∧
      erase do_compare x l = l.take (order do_compare x l) ++ l.drop (order do_compare x l + 1)) ∨
    (order do_compare x l ≤ l.length ∧ r = (NAME_NOT_FOUND, (order do_compare x l : Int)) ∧
      lookup do_compare x l = none ∧
      put do_compare x l = l.take (order do_compare x l) ++ [x] ++ l.drop (order do_compare x l)) := by
  obtain ⟨k, hkl, hk, hbelow, ⟨hr, habove⟩ | ⟨hr, hlt, heq, habove⟩⟩ := hl
  · have hcut : l = l.take k ++ [] ++ l.drop k := by rw [List.append_nil, List.take_append_drop]
    have hnone : ∀ y ∈ ([] : List α), do_compare y x = 0 := fun y hy => absurd hy List.not_mem_nil
    have hord : order do_compare x l = k := by
      conv_lhs => rw [hcut, order_of_cut hbelow hnone habove]
      exact List.length_take_of_le hkl
    have hput := put_of_cut hbelow hnone habove
    have hlook := lookup_of_cut hbelow hnone habove
    rw [← hcut] at hput hlook
    subst hord
    exact .inr ⟨hkl, Prod.ext hr hk, hlook, hput⟩
  · have hcut : l = l.take k ++ [l[k]] ++ l.drop (k + 1) := eq_take_get_drop hlt
    have hone : ∀ y ∈ [l[k]], do_compare y x = 0 := fun y hy => by rwa [List.mem_singleton.mp hy]
    have hord : order do_compare x l = k := by
      conv_lhs => rw [hcut, order_of_cut hbelow hone habove]
      exact List.length_take_of_le hkl
    have hput := put_of_cut hbelow hone habove
    have hlook := lookup_of_cut hbelow hone habove
    have herase := erase_of_cut hbelow hone habove
    rw [← hcut] at hput hlook herase
    subst hord
    rw [← set_eq_take_drop hlt] at hput
    exact .inl ⟨hlt, Prod.ext hr hk, hlook, hput, herase⟩

/-! ## Adding and removing -/

/-- **`add`** puts the item, or reports that memory was refused. -/
theorem add_spec (hc : Compares do_compare) (hr : Rep P T h v l os) (ha : Ascending do_compare l)
    (hx : Supplies os item [x]) (h31 : l.length < 0x80000000)
    (hA : Exhausted P T (l.length + 1) → A) :
    Ensures A (add P T do_compare v item) (fun r h' =>
      (r.2 = order do_compare x l ∧ Rep P T h' r.1 (put do_compare x l) os) ∨
      (r.2 = NO_MEMORY ∧ Rep P T h' r.1 l os ∧ Refused P ∧ lookup do_compare x l = none)) h := by
  refine (_indexOrderOf_spec hc hr ha hx h31).bind ?_
  rintro r _ ⟨rfl, hl⟩
  rcases hl.cases with ⟨hk, rfl, -, hput, -⟩ | ⟨hk, rfl, hnone, hput⟩
  · refine ensures_ite (fun hneg => absurd hneg (by omega)) fun _ => ?_
    rw [Int.toNat_natCast, hput]
    refine (replaceAt_spec hr hk hx fun hf => hA (.inl hf)).mono fun r h' hq => .inl ⟨?_, hq.2⟩
    rw [hq.1, ssize_of_lt (by omega)]
  · refine ensures_ite (fun _ => ?_) fun hpos => absurd (show NAME_NOT_FOUND < 0 by decide) hpos
    rw [Int.toNat_natCast, hput]
    refine (insertAt_spec hr hk (fun _ => hx) (fun h0 => absurd h0 (by decide)) hA).mono ?_
    rintro r h' (⟨hres, hrep, -⟩ | ⟨hres, hrep, hwhy⟩)
    · refine .inl ⟨?_, hrep⟩
      rw [hres, ssize_of_lt (by omega)]
    · exact .inr ⟨hres, hrep, hwhy.resolve_right fun he => absurd he.1 (List.cons_ne_nil x []), hnone⟩

/-- **`remove`** erases the item's kind; its result is where it was, or that it was not there. -/
theorem remove_spec (hc : Compares do_compare) (hr : Rep P T h v l os) (ha : Ascending do_compare l)
    (hx : Supplies os item [x]) (h31 : l.length < 0x80000000) (hA : Exhausted P T 0 → A) :
    Ensures A (remove P T do_compare v item) (fun r h' =>
      (lookup do_compare x l = none ∧ r = (v, NAME_NOT_FOUND) ∧ h' = h) ∨
      (lookup do_compare x l ≠ none ∧ r.2 = order do_compare x l ∧
        (Rep P T h' r.1 (erase do_compare x l) os ∨ (Rep P T h' r.1 l os ∧ Refused P)))) h := by
  have hloc : Ensures A (indexOf do_compare v item)
      (fun i h' => h' = h ∧ ∃ r, Located do_compare l x r ∧ r.1 = i) h :=
    (_indexOrderOf_spec hc hr ha hx h31).bind fun r h' hq => ensures_pure ⟨hq.1, r, hq.2, rfl⟩
  refine hloc.bind ?_
  rintro _ _ ⟨rfl, r, hl, rfl⟩
  rcases hl.cases with ⟨hk, rfl, hsome, -, herase⟩ | ⟨-, rfl, hnone, -⟩
  · refine ensures_ite (fun _ => ?_) fun hneg => absurd (Int.natCast_nonneg _) hneg
    rw [Int.toNat_natCast]
    refine (removeItemsAt_spec hr hk (fun h0 => absurd h0 (by decide)) hA).bind fun r h' hq => ?_
    refine ensures_pure (.inr ⟨by rw [hsome]; exact Option.some_ne_none _, rfl, ?_⟩)
    rw [herase]
    exact hq.2.imp_left And.left
  · refine ensures_ite (fun hpos => absurd (show 0 ≤ NAME_NOT_FOUND from hpos) (by decide)) fun _ => ?_
    exact ensures_pure (.inl ⟨hnone, rfl, rfl⟩)

/-! ## Merging -/

/-- What adding items of another vector one by one leaves: all are put, or (a request was refused) the
    first of them. -/
def Merged (P : Platform) (T : Traits α) (cmp : α → α → Int) (os : List (Owner (SharedBuffer α)))
    (l m : List α) (r : VectorImpl × Int) (h' : Memory α) : Prop :=
  (r.2 = NO_ERROR ∧ Rep P T h' r.1 (putAll cmp m l) os) ∨
  (r.2 = NO_MEMORY ∧ Refused P ∧ ∃ n < m.length, Rep P T h' r.1 (putAll cmp (m.take n) l) os)

variable {u : VectorImpl} {m : List α}

theorem mergeFrom_spec (hc : Compares do_compare) (hu : own P T u m ∈ os)
    (hnull : u.mStorage = none → m = []) (bound : Nat) (h31 : bound < 0x80000000)
    (hA : Exhausted P T bound → A) : ∀ (left i : Nat) {v : VectorImpl} {l : List α} {h : Memory α},
      Rep P T h v l os → Ascending do_compare l → i + left = m.length → l.length + left ≤ bound →
      Ensures A (mergeFrom P T do_compare u left i v) (Merged P T do_compare os l (m.drop i)) h
  | 0, i, v, l, h, hr, ha, hi, hb => by
    refine ensures_pure (.inl ⟨rfl, ?_⟩)
    rw [List.drop_of_length_le (by omega)]
    exact hr
  | left + 1, i, v, l, h, hr, ha, hi, hb => by
    have hlt : i < m.length := by omega
    have hsup : Supplies os (array u i) [m[i]] := by
      have := supplies_array i 1 hu hnull hlt
      rwa [slice, List.drop_eq_getElem_cons hlt, List.take_succ_cons, List.take_zero] at this
    have hroom : Exhausted P T (l.length + 1) → A :=
      fun he => hA (he.imp_right fun ho => ho.mono (by omega))
    rw [List.drop_eq_getElem_cons hlt]
    refine (add_spec hc hr ha hsup (by omega) hroom).bind ?_
    rintro ⟨v', err⟩ h₁ (⟨hres, hrep⟩ | ⟨hres, hrep, href, -⟩)
    · replace hres : err = _ := hres
      subst hres
      refine ensures_ite (fun hneg => absurd hneg (by omega)) fun _ => ?_
      have hlen := length_put_le m[i] l hc ha
      refine (mergeFrom_spec hc hu hnull bound h31 hA left (i + 1) hrep (ha.put hc _) (by omega)
        (by omega)).mono ?_
      rintro r h' (hdone | ⟨hr₂, href, n, hn, hrep₂⟩)
      · exact .inl hdone
      · refine .inr ⟨hr₂, href, n + 1, ?_, ?_⟩
        · rw [List.length_cons]
          omega
        · rwa [List.take_succ_cons]
    · replace hres : err = _ := hres
      subst hres
      refine ensures_ite (fun _ => ?_) fun hpos => absurd (show NO_MEMORY < 0 by decide) hpos
      exact ensures_pure (.inr ⟨rfl, href, 0, Nat.succ_pos _, hrep⟩)

/-- **`merge`** puts the items of any vector, whatever their order. -/
theorem merge_spec (hc : Compares do_compare) (hr : Rep P T h v l os) (ha : Ascending do_compare l)
    (hu : own P T u m ∈ os) (hcount : u.mCount = m.length) (hnull : u.mStorage = none → m = [])
    (h31 : l.length + m.length < 0x80000000) (hA : Exhausted P T (l.length + m.length) → A) :
    Ensures A (merge P T do_compare v u) (Merged P T do_compare os l m) h := by
  refine ensures_ite (fun _ => ?_) fun h0 => ?_
  · rw [hcount]
    exact mergeFrom_spec hc hu hnull _ h31 hA m.length 0 hr ha (Nat.zero_add _) (Nat.le_refl _)
  · have hm : m = [] := List.length_eq_zero_iff.mp (hcount ▸ Decidable.of_not_not h0)
    subst hm
    exact ensures_pure (.inl ⟨rfl, hr⟩)

/-! ## Merging sorted vectors -/

/-- What `merge` makes of two sorted lists. -/
def joined (cmp : α → α → Int) (l m : List α) (hl : l ≠ []) (hm : m ≠ []) : List α :=
  if cmp (m.getLast hm) (l.head hl) ≤ 0 then m ++ l
  else if 0 ≤ cmp (m.head hm) (l.getLast hl) then l ++ m
  else putAll cmp m l

/-- Neither end of the one list equals the opposite end of the other. -/
def EndsDiffer (cmp : α → α → Int) (l m : List α) (hl : l ≠ []) (hm : m ≠ []) : Prop :=
  cmp (m.getLast hm) (l.head hl) ≠ 0 ∧ cmp (m.head hm) (l.getLast hl) ≠ 0

variable (hl : l ≠ []) (hm : m ≠ [])

theorem ascending_joined (hc : Compares do_compare) (ha : Ascending do_compare l)
    (hb : Ascending do_compare m) :
    Ascending do_compare (joined do_compare l m hl hm) ↔ EndsDiffer do_compare l m hl hm := by
  unfold joined EndsDiffer
  by_cases hfront : do_compare (m.getLast hm) (l.head hl) ≤ 0
  · rw [if_pos hfront, ascending_append hc hb ha hm hl]
    constructor
    · intro hlt
      have h₁ := hc.lt_of_le_of_lt (hb.head_le_last hc hm) hlt
      exact ⟨hlt.ne, (hc.lt_of_lt_of_le h₁ (ha.head_le_last hc hl)).ne⟩
    · rintro ⟨hne, -⟩
      omega
  · rw [if_neg hfront]
    by_cases hback : 0 ≤ do_compare (m.head hm) (l.getLast hl)
    · rw [if_pos hback, ascending_append hc ha hb hl hm, hc.swap]
      constructor
      · intro hlt
        exact ⟨by omega, hlt.ne'⟩
      · rintro ⟨-, hne⟩
        omega
    · rw [if_neg hback]
      exact ⟨fun _ => ⟨by omega, by omega⟩, fun _ => ha.putAll hc m⟩

theorem joined_eq_putAll (hc : Compares do_compare) (ha : Ascending do_compare l)
    (hb : Ascending do_compare m) (hd : EndsDiffer do_compare l m hl hm) :
    joined do_compare l m hl hm = putAll do_compare m l := by
  have hasc := (ascending_joined hl hm hc ha hb).mpr hd
  unfold joined at hasc ⊢
  by_cases hfront : do_compare (m.getLast hm) (l.head hl) ≤ 0
  · rw [if_pos hfront] at hasc ⊢
    exact (putAll_front hc hasc).symm
  · rw [if_neg hfront] at hasc ⊢
    by_cases hback : 0 ≤ do_compare (m.head hm) (l.getLast hl)
    · rw [if_pos hback] at hasc ⊢
      exact (putAll_back hc hasc).symm
    · rw [if_neg hback]

/-- The location of an item of a vector's own. -/
theorem itemLocation_spec {os' : List (Owner (SharedBuffer α))} {i : Nat} (hO : Owned h os')
    (ho : own P T u m ∈ os') (hnull : u.mStorage = none → m = []) (hi : i < m.length) :
    Ensures A (itemLocation T u i) (fun r h' => h' = h ∧ ∃ a, u.mStorage = some a ∧ r = some (a, i)) h := by
  cases hst : u.mStorage with
  | none =>
    rw [hnull hst] at hi
    exact absurd hi (Nat.not_lt_zero i)
  | some a =>
    obtain ⟨c, hcell, hholds⟩ := hO.cell_of_mem ho hst
    have hcap : i < c.payload.mSize / T.itemSize := Nat.lt_of_lt_of_le hi (Holds.slots_length hholds)
    unfold itemLocation capacity
    rw [hst]
    exact ensures_bind (ensures_bind (ensures_deref hcell (ensures_pure
      (ensures_ite (fun _ => ensures_pure ⟨rfl, a, rfl, rfl⟩) fun hge => absurd hcap hge))))

/-- What is read there. -/
theorem readLocation_spec {os' : List (Owner (SharedBuffer α))} {a i : Nat} {Q : α → Memory α → Prop}
    (hO : Owned h os') (ho : own P T u m ∈ os') (hst : u.mStorage = some a) (hi : i < m.length)
    (hq : Q m[i] h) : Ensures A (readLocation (some (a, i))) Q h := by
  have hread : Ensures A (readAt (array u i)) Q h :=
    readAt_array hO ho (fun hnone => by rw [hst] at hnone; cases hnone) hi hq
  rwa [array, hst] at hread

/-- **`merge`** of a sorted vector into one that is not empty. -/
theorem mergeSorted_spec (hc : Compares do_compare) (hr : Rep P T h v l os) (ha : Ascending do_compare l)
    (hu : own P T u m ∈ os) (hcount : u.mCount = m.length) (hnull : u.mStorage = none → m = [])
    (h31 : l.length + m.length < 0x80000000) (hA : Exhausted P T (l.length + m.length) → A) :
    Ensures A (mergeSorted P T do_compare v u) (fun r h' =>
      (0 ≤ r.2 ∧ Rep P T h' r.1 (joined do_compare l m hl hm) os) ∨
      (r.2 = NO_MEMORY ∧ Refused P ∧
        ∃ n < m.length, Rep P T h' r.1 (putAll do_compare (m.take n) l) os)) h := by
  have hlpos := List.length_pos_iff.mpr hl
  have hmpos := List.length_pos_iff.mpr hm
  have hsup : Supplies os (array u 0) m := by
    have := supplies_array 0 m.length hu hnull (by omega)
    rwa [slice, List.drop_zero, List.take_length] at this
  have hmov : ∀ index, Movable T l index m.length := fun _ h0 => absurd h0 hmpos.ne'
  have hulast : lastIndex u = m.length - 1 := by
    rw [lastIndex, hcount]
    omega
  -- inserting all of them at an end
  have hinsert : ∀ index, index ≤ l.length → l.take index ++ m ++ l.drop index = joined do_compare l m hl hm →
      Ensures A (insertVectorAt P T v u index) (fun r h' =>
        (0 ≤ r.2 ∧ Rep P T h' r.1 (joined do_compare l m hl hm) os) ∨
        (r.2 = NO_MEMORY ∧ Refused P ∧
          ∃ n < m.length, Rep P T h' r.1 (putAll do_compare (m.take n) l) os)) h := by
    intro index hw heq
    rw [insertVectorAt, hcount]
    refine (insertArrayAt_spec hr hw hsup (hmov index) hA).mono ?_
    rintro r h' (⟨hres, hrep, -⟩ | ⟨hres, hrep, hwhy⟩)
    · refine .inl ⟨?_, heq ▸ hrep⟩
      rw [hres, ssize_of_lt (by omega)]
      exact Int.natCast_nonneg _
    · exact .inr ⟨hres, hwhy.resolve_right fun he => hm he.1, 0, hmpos, hrep⟩
  refine ensures_ite (fun _ => ?_) fun h0 => absurd (show u.mCount ≠ 0 by omega) h0
  rw [hulast]
  refine (itemLocation_spec hr.owned (List.mem_cons_of_mem _ hu) hnull (by omega)).bind ?_
  rintro _ _ ⟨rfl, a, hst, rfl⟩
  refine ensures_bind (readLocation_spec hr.owned (List.mem_cons_of_mem _ hu) hst (by omega) ?_)
  refine ensures_bind (readAt_array hr.owned List.mem_cons_self hr.null hlpos ?_)
  rw [← List.getLast_eq_getElem hm, ← List.head_eq_getElem hl]
  refine ensures_ite (fun hfront => ?_) fun hfront => ?_
  · exact hinsert 0 (Nat.zero_le _) (by rw [joined, if_pos hfront]; rfl)
  · refine ensures_bind (readAt_array hr.owned (List.mem_cons_of_mem _ hu) hnull hmpos ?_)
    rw [lastIndex_eq hr hl]
    refine (itemLocation_spec hr.owned List.mem_cons_self hr.null (by omega)).bind ?_
    rintro _ _ ⟨rfl, b, hst', rfl⟩
    refine ensures_bind (readLocation_spec hr.owned List.mem_cons_self hst' (by omega) ?_)
    rw [← List.getLast_eq_getElem hl, ← List.head_eq_getElem hm]
    refine ensures_ite (fun hback => ?_) fun hback => ?_
    · rw [appendVector, hr.count]
      refine hinsert l.length (Nat.le_refl _) ?_
      rw [joined, if_neg hfront, if_pos hback, List.take_length, List.drop_length, List.append_nil]
    · have hjoin : joined do_compare l m hl hm = putAll do_compare m l := by
        rw [joined, if_neg hfront, if_neg hback]
      rw [hjoin]
      refine (merge_spec hc hr ha hu hcount hnull h31 hA).mono ?_
      rintro r h' (⟨hres, hrep⟩ | hfail)
      · exact .inl ⟨hres.symm ▸ Int.le_refl 0, hrep⟩
      · exact .inr hfail

/-- **When merging sorted vectors keeps the order**: exactly when neither end of the one equals the
    opposite end of the other.  Then it is putting the items one by one; otherwise an item stands twice
    in the result. -/
theorem mergeSorted_keeps_order (hc : Compares do_compare) (hr : Rep P T h v l os)
    (ha : Ascending do_compare l) (hu : own P T u m ∈ os) (hcount : u.mCount = m.length)
    (hnull : u.mStorage = none → m = []) (hb : Ascending do_compare m)
    (h31 : l.length + m.length < 0x80000000) :
    Ensures (Exhausted P T (l.length + m.length)) (mergeSorted P T do_compare v u) (fun r h' =>
      (0 ≤ r.2 ∧ ∃ l', Rep P T h' r.1 l' os ∧
        (Ascending do_compare l' ↔ EndsDiffer do_compare l m hl hm) ∧
        (EndsDiffer do_compare l m hl hm → l' = putAll do_compare m l)) ∨
      (r.2 = NO_MEMORY ∧ Refused P ∧
        ∃ n < m.length, Rep P T h' r.1 (putAll do_compare (m.take n) l) os)) h := by
  refine (mergeSorted_spec hl hm hc hr ha hu hcount hnull h31 id).mono ?_
  rintro r h' (⟨hres, hrep⟩ | hfail)
  · exact .inl ⟨hres, _, hrep, ascending_joined hl hm hc ha hb, joined_eq_putAll hl hm hc ha hb⟩
  · exact .inr hfail

theorem compares_byValue : Compares byValue where
  swap := fun x y => by
    unfold byValue
    omega
  trans := fun x y z => by
    unfold byValue
    omega

/-- Putting 3 and 5 behind 1 and 3. -/
theorem mergeSorted_keeps_order_touching :
    ¬ EndsDiffer byValue [1, 3] [3, 5] (by decide) (by decide) ∧
    Ensures (Exhausted ample numbers 4) (mergeSorted ample numbers byValue ⟨some 1, 2⟩ ⟨some 0, 2⟩)
      (fun r h' =>
        (0 ≤ r.2 ∧ ∃ l', Rep ample numbers h' r.1 l' [own ample numbers ⟨some 0, 2⟩ [3, 5]] ∧
          (Ascending byValue l' ↔ EndsDiffer byValue [1, 3] [3, 5] (by decide) (by decide)) ∧
          (EndsDiffer byValue [1, 3] [3, 5] (by decide) (by decide) → l' = putAll byValue [3, 5] [1, 3])) ∨
        (r.2 = NO_MEMORY ∧ Refused ample ∧ ∃ n < 2, Rep ample numbers h' r.1
          (putAll byValue (List.take n [3, 5]) [1, 3]) [own ample numbers ⟨some 0, 2⟩ [3, 5]]))
      (box (boxed [3, 5] 2) [1, 3] 2) := by
  refine ⟨fun h => h.2 rfl, ?_⟩
  exact mergeSorted_keeps_order (by decide) (by decide) compares_byValue
    (rep_box (rep_boxed [3, 5] 2 (by decide)).owned [1, 3] 2 (by decide)) (by decide)
    List.mem_cons_self rfl (fun h => by cases h) (by decide) (by decide)

/-- Merging a sorted vector into one that never held an item compares with what is not there. -/
theorem mergeSorted_into_nothing (hO : Owned h os) (hu : own P T u m ∈ os) (hcount : u.mCount = m.length)
    (hnull : u.mStorage = none → m = []) (hne : m ≠ []) (h32 : m.length < 0x100000000) :
    mergeSorted P T do_compare VectorImpl.new u h = .undefined := by
  have hpos := List.length_pos_iff.mpr hne
  have hlast : lastIndex u = m.length - 1 := by
    rw [lastIndex, hcount]
    omega
  rw [mergeSorted, if_pos (show u.mCount ≠ 0 by omega), hlast]
  refine (itemLocation_spec hO hu hnull (by omega)).undefined_bind ?_
  rintro _ _ ⟨rfl, a, hst, rfl⟩
  refine (readLocation_spec (Q := fun _ h' => h' = _) hO hu hst (by omega) rfl).undefined_bind ?_
  rintro _ _ rfl
  rfl

end Codina.Utils.SortedVectorImpl
