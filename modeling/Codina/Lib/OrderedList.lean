/-
  Lists in strictly ascending order of a three-way comparison, as finite maps.

  A comparison returns a number whose sign tells how two items stand (`Compares`).  An ascending list
  holds at most one item of each kind, so it is a map from kinds to items: `lookup` is that map, `put`
  and `erase` change it at one kind, and two ascending lists with one map are the same list
  (`Ascending.ext`).  An array is searched by cutting it in front of and behind the items of a kind
  (`below_of_cut`).

  Nothing here names a particular program.
-/
import Mathlib.Data.List.Basic
import Mathlib.Data.List.Perm.Basic
import Mathlib.Data.List.Perm.Lattice
import Mathlib.Data.Int.Order.Basic
import Mathlib.Order.Basic

namespace Codina.OrderedList

variable {α : Type}

/-- The sign of `cmp x y` orders the items. -/
structure Compares (cmp : α → α → Int) : Prop where
  swap : ∀ x y, cmp x y < 0 ↔ 0 < cmp y x
  trans : ∀ x y z, cmp x y ≤ 0 → cmp y z ≤ 0 → cmp x z ≤ 0

def Ascending (cmp : α → α → Int) (l : List α) : Prop := l.Pairwise fun x y => cmp x y < 0

instance (cmp : α → α → Int) (l : List α) : Decidable (Ascending cmp l) :=
  inferInstanceAs (Decidable (l.Pairwise fun x y => cmp x y < 0))

/-- No two items of one kind. -/
def Distinct (cmp : α → α → Int) (l : List α) : Prop := l.Pairwise fun x y => cmp x y ≠ 0

section

variable (cmp : α → α → Int) (x : α) (l : List α)

def below : List α := l.filter fun y => cmp y x < 0

def alike : List α := l.filter fun y => cmp y x = 0

def above : List α := l.filter fun y => 0 < cmp y x

/-- Where `x` is, or belongs. -/
def order : Nat := (below cmp x l).length

/-- The item of `x`'s kind. -/
def lookup : Option α := l.find? fun y => cmp y x = 0

def put : List α := below cmp x l ++ x :: above cmp x l

def erase : List α := below cmp x l ++ above cmp x l

/-- Items put one after the other. -/
def putAll (xs l : List α) : List α := xs.foldl (fun l x => put cmp x l) l

end

variable {cmp : α → α → Int} {x y z : α} {l m : List α}

/-! ## The comparison -/

theorem Compares.eq_comm (hc : Compares cmp) : cmp x y = 0 ↔ cmp y x = 0 := by
  have hxy := hc.swap x y
  have hyx := hc.swap y x
  omega

theorem Compares.refl (hc : Compares cmp) : cmp x x = 0 := by
  have := hc.swap x x
  omega

theorem Compares.lt_of_lt_of_le (hc : Compares cmp) (hxy : cmp x y < 0) (hyz : cmp y z ≤ 0) :
    cmp x z < 0 := by
  by_contra hge
  have hzx : cmp z x ≤ 0 := by
    have := hc.swap z x
    have := hc.swap x z
    omega
  have hyx := hc.trans y z x hyz hzx
  have := (hc.swap x y).mp hxy
  omega

theorem Compares.lt_of_le_of_lt (hc : Compares cmp) (hxy : cmp x y ≤ 0) (hyz : cmp y z < 0) :
    cmp x z < 0 := by
  by_contra hge
  have hzx : cmp z x ≤ 0 := by
    have := hc.swap z x
    have := hc.swap x z
    omega
  have hzy := hc.trans z x y hzx hxy
  have := (hc.swap y z).mp hyz
  omega

theorem Compares.eq_trans (hc : Compares cmp) (hxy : cmp x y = 0) (hyz : cmp y z = 0) : cmp x z = 0 := by
  have hyx := hc.eq_comm.mp hxy
  have hzy := hc.eq_comm.mp hyz
  have hxz := hc.trans x y z hxy.le hyz.le
  have hzx := hc.trans z y x hzy.le hyx.le
  have := hc.swap x z
  omega

/-! ## Cutting a list -/

theorem filter_cut {p : α → Bool} {s m t : List α} (hs : ∀ y ∈ s, p y = true) (hm : ∀ y ∈ m, p y = false)
    (ht : ∀ y ∈ t, p y = false) : (s ++ m ++ t).filter p = s := by
  rw [List.filter_append, List.filter_append, List.filter_eq_self.mpr hs,
    List.filter_eq_nil_iff.mpr fun y hy => by rw [hm y hy]; exact Bool.false_ne_true,
    List.filter_eq_nil_iff.mpr fun y hy => by rw [ht y hy]; exact Bool.false_ne_true,
    List.append_nil, List.append_nil]

section

variable {s t : List α} (hs : ∀ y ∈ s, cmp y x < 0) (hm : ∀ y ∈ m, cmp y x = 0)
  (ht : ∀ y ∈ t, 0 < cmp y x)

include hs hm ht

theorem below_of_cut : below cmp x (s ++ m ++ t) = s := by
  refine filter_cut (fun y hy => decide_eq_true (hs y hy)) (fun y hy => decide_eq_false ?_)
    fun y hy => decide_eq_false ?_
  · rw [hm y hy]
    exact Int.lt_irrefl 0
  · exact Int.not_lt.mpr (ht y hy).le

theorem above_of_cut : above cmp x (s ++ m ++ t) = t := by
  have hnil : (s ++ m).filter (fun y => decide (0 < cmp y x)) = [] := by
    refine List.filter_eq_nil_iff.mpr fun y hy => ?_
    rw [decide_eq_true_eq, Int.not_lt]
    exact (List.mem_append.mp hy).elim (fun h => (hs y h).le) fun h => (hm y h).le
  rw [above, List.filter_append, hnil, List.nil_append]
  exact List.filter_eq_self.mpr fun y hy => decide_eq_true (ht y hy)

end

/-- An ascending list, cut at a kind. -/
theorem Ascending.cut (hc : Compares cmp) (x : α) : ∀ {l : List α}, Ascending cmp l →
    l = below cmp x l ++ alike cmp x l ++ above cmp x l
  | [], _ => rfl
  | y :: l, ha => by
    obtain ⟨hy, hl⟩ := List.pairwise_cons.mp ha
    by_cases hlt : cmp y x < 0
    · have h1 : below cmp x (y :: l) = y :: below cmp x l :=
        List.filter_cons_of_pos (decide_eq_true hlt)
      have h2 : alike cmp x (y :: l) = alike cmp x l :=
        List.filter_cons_of_neg (by rw [decide_eq_true_eq]; exact hlt.ne)
      have h3 : above cmp x (y :: l) = above cmp x l :=
        List.filter_cons_of_neg (by rw [decide_eq_true_eq]; exact Int.not_lt.mpr hlt.le)
      rw [h1, h2, h3, List.cons_append, List.cons_append, ← Ascending.cut hc x hl]
    · -- everything behind `y` is above `x`
      have hge : cmp x y ≤ 0 := by
        have := hc.swap x y
        have := hc.swap y x
        omega
      have hall : ∀ z ∈ l, 0 < cmp z x := fun z hz => (hc.swap x z).mp (hc.lt_of_le_of_lt hge (hy z hz))
      by_cases heq : cmp y x = 0
      · have hcut : y :: l = [] ++ [y] ++ l := rfl
        have hm : ∀ z ∈ [y], cmp z x = 0 := fun z hz => by rwa [List.mem_singleton.mp hz]
        have hnone : l.filter (fun z => cmp z x = 0) = [] := by
          refine List.filter_eq_nil_iff.mpr fun z hz => ?_
          rw [decide_eq_true_eq]
          exact (hall z hz).ne'
        have hsame : alike cmp x (y :: l) = [y] := by
          have hpos : decide (cmp y x = 0) = true := decide_eq_true heq
          rw [alike, List.filter_cons, if_pos hpos, hnone]
        rw [hcut, below_of_cut (fun _ h => absurd h List.not_mem_nil) hm hall,
          above_of_cut (fun _ h => absurd h List.not_mem_nil) hm hall, ← hcut, hsame]
        rfl
      · have hall' : ∀ z ∈ y :: l, 0 < cmp z x := by
          intro z hz
          rcases List.mem_cons.mp hz with rfl | hz
          · omega
          · exact hall z hz
        have hcut : y :: l = [] ++ [] ++ (y :: l) := rfl
        have hsame : alike cmp x (y :: l) = [] := by
          refine List.filter_eq_nil_iff.mpr fun z hz => ?_
          rw [decide_eq_true_eq]
          exact (hall' z hz).ne'
        rw [hsame, hcut, below_of_cut (fun _ h => absurd h List.not_mem_nil)
          (fun _ h => absurd h List.not_mem_nil) hall', above_of_cut (fun _ h => absurd h List.not_mem_nil)
          (fun _ h => absurd h List.not_mem_nil) hall', ← hcut]

theorem mem_below : y ∈ below cmp x l ↔ y ∈ l ∧ cmp y x < 0 := by
  rw [below, List.mem_filter, decide_eq_true_eq]

theorem mem_above : y ∈ above cmp x l ↔ y ∈ l ∧ 0 < cmp y x := by
  rw [above, List.mem_filter, decide_eq_true_eq]

theorem length_put_le (x : α) (l : List α) (hc : Compares cmp) (ha : Ascending cmp l) :
    (put cmp x l).length ≤ l.length + 1 := by
  have hcut := congrArg List.length (ha.cut hc x)
  simp only [List.length_append] at hcut
  rw [put, List.length_append, List.length_cons]
  omega

theorem mem_alike : y ∈ alike cmp x l ↔ y ∈ l ∧ cmp y x = 0 := by
  rw [alike, List.mem_filter, decide_eq_true_eq]

/-! ## Positions in an ascending list -/

theorem Ascending.around (ha : Ascending cmp l) {i : Nat} (hi : i < l.length) :
    (∀ y ∈ l.take i, cmp y l[i] < 0) ∧ ∀ y ∈ l.drop (i + 1), cmp l[i] y < 0 := by
  have hsplit : l = l.take i ++ l[i] :: l.drop (i + 1) := by
    rw [List.getElem_cons_drop, List.take_append_drop]
  have hp : Ascending cmp (l.take i ++ l[i] :: l.drop (i + 1)) := hsplit ▸ ha
  obtain ⟨-, hright, hcross⟩ := List.pairwise_append.mp hp
  exact ⟨fun y hy => hcross y hy _ List.mem_cons_self, (List.pairwise_cons.mp hright).1⟩

/-- Up to an item that is below `x` all are. -/
theorem Ascending.take_below (hc : Compares cmp) (ha : Ascending cmp l) {i : Nat} (hi : i < l.length)
    (hx : cmp l[i] x ≤ 0) : (∀ y ∈ l.take i, cmp y x < 0) ∧
      (cmp l[i] x < 0 → ∀ y ∈ l.take (i + 1), cmp y x < 0) := by
  have hbefore : ∀ y ∈ l.take i, cmp y x < 0 := fun y hy => hc.lt_of_lt_of_le ((ha.around hi).1 y hy) hx
  refine ⟨hbefore, fun hlt y hy => ?_⟩
  rw [List.take_add_one, List.getElem?_eq_getElem hi] at hy
  rcases List.mem_append.mp hy with hy | hy
  · exact hbefore y hy
  · rwa [List.mem_singleton.mp hy]

/-- From an item that is above `x` on all are. -/
theorem Ascending.drop_above (hc : Compares cmp) (ha : Ascending cmp l) {i : Nat} (hi : i < l.length)
    (hx : 0 ≤ cmp l[i] x) : (∀ y ∈ l.drop (i + 1), 0 < cmp y x) ∧
      (0 < cmp l[i] x → ∀ y ∈ l.drop i, 0 < cmp y x) := by
  have hxi : cmp x l[i] ≤ 0 := by
    have := hc.swap l[i] x
    have := hc.swap x l[i]
    omega
  have hbehind : ∀ y ∈ l.drop (i + 1), 0 < cmp y x :=
    fun y hy => (hc.swap x y).mp (hc.lt_of_le_of_lt hxi ((ha.around hi).2 y hy))
  refine ⟨hbehind, fun hlt y hy => ?_⟩
  rw [List.drop_eq_getElem_cons hi] at hy
  rcases List.mem_cons.mp hy with rfl | hy
  · exact hlt
  · exact hbehind y hy

/-! ## Order is kept -/

theorem Ascending.below_above (hc : Compares cmp) (x : α) (ha : Ascending cmp l) :
    Ascending cmp (below cmp x l) ∧ Ascending cmp (above cmp x l) ∧
      ∀ y ∈ below cmp x l, ∀ z ∈ above cmp x l, cmp y z < 0 := by
  refine ⟨ha.sublist List.filter_sublist, ha.sublist List.filter_sublist, fun y hy z hz => ?_⟩
  exact hc.lt_of_lt_of_le (mem_below.mp hy).2 ((hc.swap x z).mpr (mem_above.mp hz).2).le

theorem Ascending.put (hc : Compares cmp) (x : α) (ha : Ascending cmp l) :
    Ascending cmp (put cmp x l) := by
  obtain ⟨hb, hab, hbetween⟩ := ha.below_above hc x
  refine List.pairwise_append.mpr ⟨hb, List.pairwise_cons.mpr ⟨fun z hz => ?_, hab⟩, fun y hy z hz => ?_⟩
  · exact (hc.swap x z).mpr (mem_above.mp hz).2
  · rcases List.mem_cons.mp hz with rfl | hz
    · exact (mem_below.mp hy).2
    · exact hbetween y hy z hz

theorem Ascending.erase (hc : Compares cmp) (x : α) (ha : Ascending cmp l) :
    Ascending cmp (erase cmp x l) :=
  List.pairwise_append.mpr (ha.below_above hc x)

theorem Ascending.putAll (hc : Compares cmp) (ha : Ascending cmp l) :
    ∀ xs, Ascending cmp (putAll cmp xs l) := by
  intro xs
  induction xs generalizing l with
  | nil => exact ha
  | cons x xs ih => exact ih (ha.put hc x)

/-! ## The map -/

theorem Ascending.distinct (ha : Ascending cmp l) : Distinct cmp l :=
  List.Pairwise.imp (fun h => h.ne) ha

theorem Distinct.reverse (hc : Compares cmp) (hd : Distinct cmp l) : Distinct cmp l.reverse :=
  List.pairwise_reverse.mpr (List.Pairwise.imp (fun h h' => h (hc.eq_comm.mp h')) hd)

theorem lookup_eq_none : lookup cmp x l = none ↔ ∀ y ∈ l, cmp y x ≠ 0 := by
  rw [lookup, List.find?_eq_none]
  simp only [decide_eq_true_eq, ne_eq]

theorem lookup_some (h : lookup cmp x l = some y) : y ∈ l ∧ cmp y x = 0 := by
  have hfound : decide (cmp y x = 0) = true := List.find?_some (p := fun z => cmp z x = 0) h
  exact ⟨List.mem_of_find?_eq_some h, of_decide_eq_true hfound⟩

theorem lookup_append : lookup cmp x (l ++ m) = (lookup cmp x l).or (lookup cmp x m) := List.find?_append

theorem lookup_cons : lookup cmp x (y :: l) = if cmp y x = 0 then some y else lookup cmp x l := by
  by_cases h : cmp y x = 0
  · rw [if_pos h]
    exact List.find?_cons_of_pos (decide_eq_true h)
  · rw [if_neg h]
    exact List.find?_cons_of_neg (by rwa [decide_eq_true_eq])

/-- Items of one kind are not found under another. -/
theorem lookup_alike (hc : Compares cmp) (hxy : cmp x y ≠ 0) : lookup cmp y (alike cmp x l) = none :=
  lookup_eq_none.mpr fun _ hz hzy => hxy (hc.eq_trans (hc.eq_comm.mp (mem_alike.mp hz).2) hzy)

section

variable {s t : List α} (hs : ∀ y ∈ s, cmp y x < 0) (hm : ∀ y ∈ m, cmp y x = 0)
  (ht : ∀ y ∈ t, 0 < cmp y x)

include hs hm ht

theorem order_of_cut : order cmp x (s ++ m ++ t) = s.length := by
  rw [order, below_of_cut hs hm ht]

theorem put_of_cut : put cmp x (s ++ m ++ t) = s ++ [x] ++ t := by
  rw [put, below_of_cut hs hm ht, above_of_cut hs hm ht, List.append_assoc]
  rfl

theorem erase_of_cut : erase cmp x (s ++ m ++ t) = s ++ t := by
  rw [erase, below_of_cut hs hm ht, above_of_cut hs hm ht]

theorem lookup_of_cut : lookup cmp x (s ++ m ++ t) = m.head? := by
  rw [lookup_append, lookup_append, lookup_eq_none.mpr fun y hy => (hs y hy).ne,
    lookup_eq_none.mpr fun y hy => (ht y hy).ne', Option.none_or, Option.or_none]
  cases m with
  | nil => rfl
  | cons y m => rw [lookup_cons, if_pos (hm y List.mem_cons_self), List.head?_cons]

end

/-- There is one item of a kind at most. -/
theorem Distinct.lookup (hc : Compares cmp) (hd : Distinct cmp l) (hy : y ∈ l) (hyx : cmp y x = 0) :
    lookup cmp x l = some y := by
  induction l with
  | nil => exact absurd hy List.not_mem_nil
  | cons z l ih =>
    obtain ⟨hz, hl⟩ := List.pairwise_cons.mp hd
    rcases List.mem_cons.mp hy with rfl | hy
    · rw [lookup_cons, if_pos hyx]
    · have hne : ¬ cmp z x = 0 := fun h => hz y hy (hc.eq_trans h (hc.eq_comm.mp hyx))
      rw [lookup_cons, if_neg hne]
      exact ih hl hy

theorem Distinct.lookup_reverse (hc : Compares cmp) (hd : Distinct cmp l) :
    OrderedList.lookup cmp x l.reverse = OrderedList.lookup cmp x l := by
  cases h : OrderedList.lookup cmp x l with
  | none =>
    refine lookup_eq_none.mpr fun y hy => lookup_eq_none.mp h y (List.mem_reverse.mp hy)
  | some y =>
    obtain ⟨hy, hyx⟩ := lookup_some h
    exact (hd.reverse hc).lookup hc (List.mem_reverse.mpr hy) hyx

/-- **Putting** changes the map at one kind. -/
theorem lookup_put (hc : Compares cmp) (ha : Ascending cmp l) :
    lookup cmp y (put cmp x l) = if cmp x y = 0 then some x else lookup cmp y l := by
  by_cases hxy : cmp x y = 0
  · rw [if_pos hxy]
    exact (ha.put hc x).distinct.lookup hc (List.mem_append_right _ List.mem_cons_self) hxy
  · rw [if_neg hxy]
    conv_rhs => rw [ha.cut hc x]
    rw [put, lookup_append, lookup_append, lookup_append, lookup_alike hc hxy, Option.or_none,
      lookup_cons, if_neg hxy]

/-- **Putting many**: the last of a kind wins, and what none of them touches stays. -/
theorem lookup_putAll (hc : Compares cmp) (ha : Ascending cmp l) (xs : List α) :
    lookup cmp y (putAll cmp xs l) = (lookup cmp y xs.reverse).or (lookup cmp y l) := by
  induction xs generalizing l with
  | nil => rfl
  | cons x xs ih =>
    rw [putAll, List.foldl_cons]
    refine (ih (ha.put hc x)).trans ?_
    rw [lookup_put hc ha, List.reverse_cons, lookup_append, lookup_cons, Option.or_assoc]
    by_cases hxy : cmp x y = 0
    · rw [if_pos hxy, if_pos hxy, Option.some_or]
    · rw [if_neg hxy, if_neg hxy]
      rfl

/-- **An ascending list is its map.** -/
theorem Ascending.ext (hc : Compares cmp) (hl : Ascending cmp l) (hm : Ascending cmp m)
    (h : ∀ y, lookup cmp y l = lookup cmp y m) : l = m := by
  have hsub : ∀ {s t : List α}, Ascending cmp s → (∀ y, lookup cmp y s = lookup cmp y t) →
      ∀ y ∈ s, y ∈ t := fun {s t} hs heq y hy =>
    (lookup_some ((heq y).symm.trans (hs.distinct.lookup hc hy hc.refl))).1
  have hnodup : ∀ {s : List α}, Ascending cmp s → s.Nodup := fun {s} hs =>
    List.Pairwise.imp (fun {a b} hab => by
      rintro rfl
      exact absurd hc.refl hab.ne) hs
  have hperm : l.Perm m := (List.perm_ext_iff_of_nodup (hnodup hl) (hnodup hm)).mpr fun y =>
    ⟨hsub hl h y, hsub hm (fun y => (h y).symm) y⟩
  exact hperm.eq_of_pairwise (fun a b _ _ hab hba => absurd hba (Int.not_lt.mpr ((hc.swap a b).mp hab).le)) hl hm

/-! ## Joining -/

/-- The first item is the least. -/
theorem Ascending.head_le_last (hc : Compares cmp) (ha : Ascending cmp l) (hl : l ≠ []) :
    cmp (l.head hl) (l.getLast hl) ≤ 0 := by
  cases l with
  | nil => exact absurd rfl hl
  | cons x l =>
    rcases List.mem_cons.mp (List.getLast_mem hl) with heq | hmem
    · rw [List.head_cons, heq]
      exact hc.refl.le
    · exact ((List.pairwise_cons.mp ha).1 _ hmem).le

/-- Two ascending lists join to one where the end of the one is below the beginning of the other. -/
theorem ascending_append (hc : Compares cmp) (hm : Ascending cmp m) (hl : Ascending cmp l) (hmn : m ≠ [])
    (hln : l ≠ []) : Ascending cmp (m ++ l) ↔ cmp (m.getLast hmn) (l.head hln) < 0 := by
  constructor
  · intro h
    exact (List.pairwise_append.mp h).2.2 _ (List.getLast_mem hmn) _ (List.head_mem hln)
  · intro hba
    refine List.pairwise_append.mpr ⟨hm, hl, fun y hy z hz => ?_⟩
    have hyb : cmp y (m.getLast hmn) ≤ 0 := by
      rw [← List.dropLast_append_getLast hmn] at hm hy
      rcases List.mem_append.mp hy with hy | hy
      · exact ((List.pairwise_append.mp hm).2.2 y hy _ List.mem_cons_self).le
      · rw [List.mem_singleton.mp hy]
        exact hc.refl.le
    have haz : cmp (l.head hln) z ≤ 0 := by
      rw [← List.cons_head_tail hln] at hl hz
      rcases List.mem_cons.mp hz with rfl | hz
      · exact hc.refl.le
      · exact ((List.pairwise_cons.mp hl).1 z hz).le
    exact hc.lt_of_lt_of_le (hc.lt_of_le_of_lt hyb hba) haz

/-- Putting items that go in front of all others. -/
theorem putAll_front (hc : Compares cmp) (hlm : Ascending cmp (m ++ l)) : putAll cmp m l = m ++ l := by
  obtain ⟨hm, hl, -⟩ := List.pairwise_append.mp hlm
  refine (Ascending.putAll hc hl m).ext hc hlm fun y => ?_
  rw [lookup_putAll hc hl, Distinct.lookup_reverse hc (Ascending.distinct hm), lookup_append]

/-- Putting items that go behind all others. -/
theorem putAll_back (hc : Compares cmp) (hlm : Ascending cmp (l ++ m)) : putAll cmp m l = l ++ m := by
  obtain ⟨hl, hm, -⟩ := List.pairwise_append.mp hlm
  refine (Ascending.putAll hc hl m).ext hc hlm fun y => ?_
  rw [lookup_putAll hc hl, ← Distinct.lookup_reverse hc (Ascending.distinct hlm), List.reverse_append,
    ← Distinct.lookup_reverse hc (Ascending.distinct hl), lookup_append]

end Codina.OrderedList
