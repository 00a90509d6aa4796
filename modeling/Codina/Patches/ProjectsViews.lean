/-
  The class `Projects` of the patch scripts as a collection: what its lookups, `in` and `for` tell.

  The object is a list and a cursor.  Whatever has been called, the list is the one that the edits make,
  and the lookups find what is in it.  The other two views do not:

    - `__contains__` calls a global `get_by_name`; the module has none, so `in` raises a NameError for
      every name.  If there were one, the `not` in front of it would turn the answer round.
    - `__iter__` is the object itself, and its cursor is never set back.  So a `for` visits what lies
      behind the cursor: every project exactly if none has been given out before, or there is none.

  So the views agree after no sequence of calls (`views_of_projects`).

  A call that raises leaves the object as it is; the caller may catch the exception.  The list that the
  object is made of is not changed elsewhere.
-/
import Codina.Patches.ParseManifests

namespace Codina.Patches

open Codina.Keyed

/-! ## The object -/

structure ProjectsObject where
  _projects : Projects
  _current : Nat := 0

/-- global name '..' is not defined -/
structure NameError where
  name : String

/-- The names that common.py binds; no builtin has the name looked up here. -/
def topLevel : List String :=
  ["sys", "os", "glob", "ET", "Popen", "PIPE", "CalledProcessError", "PROJECTS", "Remote", "Project",
    "Projects", "setup_env", "parse_manifests", "main"]

/-- A global function is called: what it returns, if the module has one of that name. -/
def callGlobal {α : Type} (names : List String) (function : String) (value : α) :
    Except NameError α :=
  if function ∈ names then .ok value else .error ⟨function⟩

def Projects.delete_by_path (path : Option String) (projects : Projects) :
    Except Exception Projects := projects.deleteBy Project.path path

def Projects.set_by_path (project : Project) (projects : Projects) : Except Exception Projects :=
  projects.setBy Project.path project

namespace ProjectsObject

variable (self : ProjectsObject)

def get_by_name (name : String) : Option Project := self._projects.get_by_name name

/-- The loop of `get_all_by_name` and `get_all_by_path`. -/
def getAllBy (key : Project → String) (k : String) : List Project :=
  self._projects.foldl (fun ret p => if key p = k then ret ++ [p] else ret) []

def get_all_by_name (name : String) : List Project := self.getAllBy Project.name name

def get_all_by_path (path : String) : List Project := self.getAllBy Project.path path

/-- `__contains__`: `not get_by_name(self, name)`, for the names bound in the module. -/
def contains (names : List String) (name : String) : Except NameError Bool :=
  (callGlobal names "get_by_name" (self.get_by_name name)).map fun p => p.isNone

/-- `none` is StopIteration. -/
def next : Option (Project × ProjectsObject) :=
  if h : self._current < self._projects.length then
    some (self._projects[self._current], { self with _current := self._current + 1 })
  else none

variable {self} in
theorem next_some {p : Project} {self' : ProjectsObject} (h : self.next = some (p, self')) :
    self._projects[self._current]? = some p ∧
      self' = { self with _current := self._current + 1 } := by
  unfold next at h
  split at h
  · cases h
    exact ⟨List.getElem?_eq_getElem _, rfl⟩
  · cases h

/-- `for p in self`: what is visited, and the object behind it.  `__iter__` is the object itself. -/
def loop (self : ProjectsObject) : List Project × ProjectsObject :=
  match _ : self.next with
  | none => ([], self)
  | some (p, self') => (p :: (loop self').1, (loop self').2)
termination_by self._projects.length - self._current
decreasing_by
  all_goals
    obtain ⟨hp, rfl⟩ := next_some ‹_›
    have := (List.getElem?_eq_some_iff.mp hp).1
    show self._projects.length - (self._current + 1) < _
    omega

/-- The object behind an edit, which may raise. -/
def edited : Except Exception Projects → ProjectsObject
  | .ok projects => { self with _projects := projects }
  | .error _ => self

end ProjectsObject

inductive Call where
  | add_projects (projects : List Project)
  | set_by_name (name : String) (project : Project)
  | set_by_path (path : String) (project : Project)
  | delete (name : Option String)
  | delete_by_path (path : Option String)
  /-- A step of a `for`. -/
  | next
  /-- A whole `for`. -/
  | loop

/-- The object behind a call. -/
def Call.run (self : ProjectsObject) : Call → ProjectsObject
  | .add_projects projects => { self with _projects := self._projects ++ projects }
  -- the first argument of these two is not used
  | .set_by_name _ project => self.edited (self._projects.set_by_name project)
  | .set_by_path _ project => self.edited (self._projects.set_by_path project)
  | .delete name => self.edited (self._projects.delete name)
  | .delete_by_path path => self.edited (self._projects.delete_by_path path)
  | .next => (self.next.map Prod.snd).getD self
  | .loop => self.loop.2

/-- A `Projects(initial)` behind some calls. -/
def after (initial : List Project) (calls : List Call) : ProjectsObject :=
  calls.foldl Call.run { _projects := initial }

/-! ## What the object is for -/

/-- A collection is edited by key and read as often as one likes. -/
def Call.edit (l : List Project) : Call → List Project
  | .add_projects projects => l ++ projects
  | .set_by_name _ project => put Project.name project l
  | .set_by_path _ project => put Project.path project l
  | .delete name => deleteFirst (fun p => some p.name) name l
  | .delete_by_path path => deleteFirst (fun p => some p.path) path l
  | .next | .loop => l

def members (initial : List Project) (calls : List Call) : List Project :=
  calls.foldl Call.edit initial

/-- The lookups find the members. -/
structure Lookups (projects : ProjectsObject) (members : List Project) : Prop where
  get_by_name : ∀ name, projects.get_by_name name = (named Project.name name members).head?
  get_all_by_name : ∀ name, projects.get_all_by_name name = named Project.name name members
  get_all_by_path : ∀ path, projects.get_all_by_path path = named Project.path path members

/-- Every view is that of the same list. -/
structure Consistent (projects : ProjectsObject) (members : List Project) : Prop where
  lookups : Lookups projects members
  contains : ∀ name, projects.contains topLevel name = .ok (projects.get_by_name name).isSome
  loop : projects.loop.1 = members

/-! ## The list -/

variable {self : ProjectsObject} {initial : List Project}

/-- A deletion, also of what is not there. -/
theorem edited_deleteBy (key : Project → String) (k : Option String) :
    self.edited (self._projects.deleteBy key k) =
      { self with _projects := deleteFirst (fun p => some (key p)) k self._projects } := by
  unfold Projects.deleteBy
  by_cases hany : (self._projects.any fun p => some (key p) = k) = true
  · rw [if_pos hany]
    rfl
  · rw [if_neg hany]
    have hnone : ∀ p ∈ self._projects, some (key p) ≠ k := by simpa using hany
    rw [deleteFirst_of_forall_ne hnone]
    rfl

theorem loop_next {p : Project} {self' : ProjectsObject} (h : self.next = some (p, self')) :
    self.loop = (p :: self'.loop.1, self'.loop.2) := by
  rw [ProjectsObject.loop]
  split
  · rename_i hnone
    cases h.symm.trans hnone
  · rename_i hsome
    cases h.symm.trans hsome
    rfl

theorem loop_stop (h : self.next = none) : self.loop = ([], self) := by
  rw [ProjectsObject.loop]
  split
  · rfl
  · rename_i hsome
    cases h.symm.trans hsome

theorem next_of_lt (h : self._current < self._projects.length) :
    self.next = some (self._projects[self._current], { self with _current := self._current + 1 }) :=
  dif_pos h

theorem next_of_le (h : self._projects.length ≤ self._current) : self.next = none :=
  dif_neg (Nat.not_lt.mpr h)

/-- **A `for` visits what lies behind the cursor**, which it leaves at the end. -/
theorem loop_eq : self.loop = (self._projects.drop self._current,
    { self with _current := max self._current self._projects.length }) := by
  -- induction on what is left of the list
  generalize hleft : self._projects.length - self._current = left
  induction left generalizing self with
  | zero =>
    have hle : self._projects.length ≤ self._current := by omega
    rw [loop_stop (next_of_le hle), List.drop_eq_nil_of_le hle, Nat.max_eq_left hle]
  | succ left ih =>
    have hlt : self._current < self._projects.length := by omega
    have hnext := next_of_lt hlt
    have hrest := @ih { self with _current := self._current + 1 } (by dsimp only; omega)
    rw [loop_next hnext, hrest, List.drop_eq_getElem_cons hlt]
    simp only [Prod.mk.injEq, ProjectsObject.mk.injEq, true_and]
    omega

/-- **The list is the one the edits make.** -/
theorem run_projects (call : Call) : (call.run self)._projects = call.edit self._projects := by
  cases call with
  | add_projects projects => rfl
  | set_by_name name project =>
    show (self.edited (self._projects.set_by_name project))._projects = _
    rw [set_by_name_eq]
    rfl
  | set_by_path path project =>
    show (self.edited (self._projects.setBy Project.path project))._projects = _
    rw [setBy_eq]
    rfl
  | delete name => exact congrArg _ (edited_deleteBy Project.name name)
  | delete_by_path path => exact congrArg _ (edited_deleteBy Project.path path)
  | next =>
    show ((self.next.map Prod.snd).getD self)._projects = _
    cases hnext : self.next with
    | none => rfl
    | some result =>
      obtain ⟨-, hself⟩ := ProjectsObject.next_some hnext
      simp only [Option.map_some, Option.getD_some, hself]
      rfl
  | loop =>
    show self.loop.2._projects = _
    rw [loop_eq]
    rfl

theorem after_projects (initial : List Project) (calls : List Call) :
    (after initial calls)._projects = members initial calls := by
  have hrun : ∀ self : ProjectsObject,
      (calls.foldl Call.run self)._projects = calls.foldl Call.edit self._projects := by
    induction calls with
    | nil => exact fun _ => rfl
    | cons call calls ih =>
      intro self
      rw [List.foldl_cons, List.foldl_cons, ih, run_projects]
  exact hrun _

theorem edited_current (result : Except Exception Projects) :
    (self.edited result)._current = self._current := by
  cases result <;> rfl

/-- The cursor is never set back. -/
theorem current_le_run (call : Call) : self._current ≤ (call.run self)._current := by
  cases call with
  | add_projects projects => exact Nat.le_refl _
  | set_by_name name project => exact Nat.le_of_eq (edited_current _).symm
  | set_by_path path project => exact Nat.le_of_eq (edited_current _).symm
  | delete name => exact Nat.le_of_eq (edited_current _).symm
  | delete_by_path path => exact Nat.le_of_eq (edited_current _).symm
  | next =>
    show _ ≤ ((self.next.map Prod.snd).getD self)._current
    cases hnext : self.next with
    | none => exact Nat.le_refl _
    | some result =>
      obtain ⟨-, hself⟩ := ProjectsObject.next_some hnext
      simp only [Option.map_some, Option.getD_some, hself]
      omega
  | loop =>
    show _ ≤ self.loop.2._current
    rw [loop_eq]
    exact Nat.le_max_left _ _

theorem current_le_after (initial : List Project) (calls later : List Call) :
    (after initial calls)._current ≤ (after initial (calls ++ later))._current := by
  have hrun : ∀ self : ProjectsObject, self._current ≤ (later.foldl Call.run self)._current := by
    induction later with
    | nil => exact fun _ => Nat.le_refl _
    | cons call later ih =>
      intro self
      exact Nat.le_trans (current_le_run call) (ih _)
  unfold after
  rw [List.foldl_append]
  exact hrun _

/-! ## The views -/

theorem getAllBy_eq (key : Project → String) (k : String) :
    self.getAllBy key k = named key k self._projects := by
  have hloop : ∀ (ps ret : List Project),
      ps.foldl (fun ret p => if key p = k then ret ++ [p] else ret) ret = ret ++ named key k ps := by
    intro ps
    induction ps with
    | nil => exact fun ret => (List.append_nil ret).symm
    | cons p ps ih =>
      intro ret
      rw [List.foldl_cons, ih]
      by_cases hk : key p = k
      · rw [if_pos hk, named_cons_self hk, List.append_assoc]
        rfl
      · rw [if_neg hk, named_cons_other hk]
  exact hloop _ []

/-- **The lookups find what the edits make.** -/
theorem lookups_after (initial : List Project) (calls : List Call) :
    Lookups (after initial calls) (members initial calls) := by
  rw [← after_projects]
  refine ⟨fun name => ?_, fun name => getAllBy_eq _ _, fun path => getAllBy_eq _ _⟩
  exact (List.head?_filter ..).symm

/-- **`in` is wrong for every name**, whatever the module binds. -/
theorem contains_wrong (names : List String) (name : String) :
    self.contains names name ≠ .ok (self.get_by_name name).isSome := by
  unfold ProjectsObject.contains callGlobal
  by_cases hbound : "get_by_name" ∈ names
  · rw [if_pos hbound]
    cases self.get_by_name name <;> simp [Except.map]
  · rw [if_neg hbound]
    exact fun h => by cases h

theorem contains_raises (name : String) :
    self.contains topLevel name = .error ⟨"get_by_name"⟩ := by
  unfold ProjectsObject.contains callGlobal
  rw [if_neg (by decide)]
  rfl

/-- A `for` visits every project if none has been given out, and else only if there is none. -/
theorem loop_visits_all_iff :
    self.loop.1 = self._projects ↔ self._current = 0 ∨ self._projects = [] := by
  rw [loop_eq]
  constructor
  · intro hall
    have hlength := congrArg List.length hall
    rw [List.length_drop] at hlength
    by_cases hempty : self._projects = []
    · exact Or.inr hempty
    · have hpos := List.length_pos_iff.mpr hempty
      exact Or.inl (by omega)
  · rintro (hzero | hempty)
    · rw [hzero]
      rfl
    · rw [hempty]
      exact List.drop_nil

/-- Once a project has been given out, no later `for` visits every project. -/
theorem loop_once (calls later : List Call) (hgiven : (after initial calls)._current ≠ 0)
    (hsome : members initial (calls ++ later) ≠ []) :
    (after initial (calls ++ later)).loop.1 ≠ members initial (calls ++ later) := by
  have hle := current_le_after initial calls later
  rw [← after_projects] at hsome ⊢
  intro hall
  rcases loop_visits_all_iff.mp hall with hzero | hempty
  · omega
  · exact hsome hempty

/-- **The views of a `Projects` never agree**: after every sequence of calls the lookups find what the
    edits make; `in` raises for every name; and a `for` visits every project exactly if the cursor is
    still at the start, or there is none. -/
theorem views_of_projects (initial : List Project) (calls : List Call) :
    ¬ Consistent (after initial calls) (members initial calls) ∧
    Lookups (after initial calls) (members initial calls) ∧
    (∀ name, (after initial calls).contains topLevel name = .error ⟨"get_by_name"⟩) ∧
    ((after initial calls).loop.1 = members initial calls ↔
      (after initial calls)._current = 0 ∨ members initial calls = []) := by
  refine ⟨fun h => ?_, lookups_after initial calls, fun _ => contains_raises _, ?_⟩
  · exact contains_wrong topLevel "" (h.contains "")
  · rw [← after_projects]
    exact loop_visits_all_iff

def bionic : Project := ⟨"android_bionic", "bionic", none, none⟩

/-- A project that is there is not found by `in`, and a second `for` does not visit it. -/
theorem bionic_not_found :
    (after [bionic] []).get_by_name "android_bionic" = some bionic ∧
    (after [bionic] []).contains topLevel "android_bionic" ≠ .ok true ∧
    (after [bionic] []).loop.1 = [bionic] ∧ (after [bionic] [.loop]).loop.1 = [] ∧
    members [bionic] [.loop] = [bionic] := by
  refine ⟨by decide, fun h => ?_, ?_, ?_, rfl⟩
  · rw [contains_raises] at h
    cases h
  · rw [loop_eq]
    rfl
  · rw [loop_eq, after_projects]
    have hrun : (after [bionic] [.loop])._current = 1 := by
      show (ProjectsObject.loop _).2._current = 1
      rw [loop_eq]
      rfl
    rw [hrun]
    rfl

end Codina.Patches
