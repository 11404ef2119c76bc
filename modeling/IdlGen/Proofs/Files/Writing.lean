import IdlGen.Proofs.Files.Reading
import Mathlib.Data.List.Basic

/-!
# Writing files

A file is written at the location that its path leads to. Writing neither makes nor loses a
directory, so afterwards every path leads where it led before. Where several texts are written at
one location, the last one stays.
-/

namespace IdlGen.FileTree

variable {t t' : FileTree} {loc loc' : Location} {node : FileNode} {path text : String}

theorem lookup_cons_node {nodes : List (Location × FileNode)} :
    ((loc, node) :: nodes).lookup loc' = if loc' = loc then some node else nodes.lookup loc' := by
  rw [List.lookup_cons]
  by_cases same : loc' = loc
  · simp [same]
  · rw [if_neg same, beq_false_of_ne same]

@[simp, grind =] theorem lookup_replace {nodes : List (Location × FileNode)} :
    (put.replace loc node nodes).lookup loc' =
      if loc' = loc then some node else nodes.lookup loc' := by
  induction nodes with
  | nil => exact lookup_cons_node
  | cons first nodes ih =>
      obtain ⟨l, n⟩ := first
      rw [put.replace]
      by_cases here : l = loc
      · rw [if_pos here, lookup_cons_node, lookup_cons_node, here]
        by_cases same : loc' = loc <;> simp [same]
      · rw [if_neg here, lookup_cons_node, lookup_cons_node, ih]
        by_cases found : loc' = l
        · simp [found, here]
        · simp [found]

/-- What is put at a location is there, and all else is as it was. -/
@[simp, grind =] theorem node?_put (notRoot : loc ≠ []) :
    (t.put loc node).node? loc' = if loc' = loc then some node else t.node? loc' := by
  unfold node?
  by_cases root : loc' = []
  · rw [if_pos root, if_pos root, if_neg (root ▸ notRoot.symm)]
  · rw [if_neg root, if_neg root]
    exact lookup_replace

/-- The trees have the same directories. -/
structure SameDirectories (t t' : FileTree) : Prop where
  home : t'.home = t.home
  directory (loc : Location) : t'.node? loc = some .directory ↔ t.node? loc = some .directory

namespace SameDirectories

@[refl, simp] theorem refl (t : FileTree) : SameDirectories t t := ⟨rfl, fun _ => .rfl⟩

theorem trans {t'' : FileTree} (first : SameDirectories t t') (second : SameDirectories t' t'') :
    SameDirectories t t'' :=
  ⟨second.home.trans first.home, fun loc => (second.directory loc).trans (first.directory loc)⟩

theorem symm (same : SameDirectories t t') : SameDirectories t' t :=
  ⟨same.home.symm, fun loc => (same.directory loc).symm⟩

theorem walk (same : SameDirectories t t') {segments : List String}
    (walked : t.walk loc segments = .ok loc') : t'.walk loc segments = .ok loc' := by
  induction segments generalizing loc with
  | nil => exact walked
  | cons segment segments ih =>
      obtain ⟨_, entered, walked⟩ := bind_eq_ok walked
      have entered' : t'.enter loc = .ok () :=
        enter_eq_ok_iff.mpr ((same.directory loc).mpr (enter_eq_ok_iff.mp entered))
      rw [FileTree.walk, entered']
      exact ih walked

/-- A path leads to the same location in both trees. -/
theorem locate (same : SameDirectories t t') (located : t.locate path = .ok loc) :
    t'.locate path = .ok loc := by
  obtain ⟨_, allowed, located⟩ := bind_eq_ok located
  have origin : t'.origin path = t.origin path := by rw [origin, origin, same.home]
  rw [FileTree.locate, allowed, origin]
  exact same.walk located

end SameDirectories

theorem read_eq_ok_iff :
    t.read path = .ok text ↔
      ∃ loc, t.locate path = .ok loc ∧ t.node? loc = some (.file (.text text)) := by
  refine ⟨exists_of_read_eq_ok, ?_⟩
  intro ⟨loc, located, there⟩
  have found : t.find path = .ok (loc, .file (.text text)) := by
    rw [find, located]
    change Except.bind (.ok loc) _ = _
    simp only [Except.bind, there]
  rw [read, found]
  rfl

/-- A path leads to a location where a file can be, and the last segment of the path is its name. -/
structure Admits (t : FileTree) (path : String) (loc : Location) : Prop where
  located : t.locate path = .ok loc
  named : loc.head? = (Path.segments path).getLast?
  notRoot : loc ≠ []
  noSlash : Text.endsWith path "/" = false
  free : t.node? loc ≠ some .directory

theorem SameDirectories.admits (same : SameDirectories t t') (admits : t.Admits path loc) :
    t'.Admits path loc where
  located := same.locate admits.located
  named := admits.named
  notRoot := admits.notRoot
  noSlash := admits.noSlash
  free := mt (same.directory loc).mp admits.free

theorem walk_append {segments : List String} {segment : String}
    (walked : t.walk loc segments = .ok loc') (entered : t.enter loc' = .ok ()) :
    t.walk loc (segments ++ [segment]) = .ok (step loc' segment) := by
  induction segments generalizing loc with
  | nil =>
      cases walked
      rw [List.nil_append, walk, entered]
      rfl
  | cons first segments ih =>
      obtain ⟨_, entered, walked⟩ := bind_eq_ok walked
      rw [List.cons_append, walk, entered]
      exact ih walked

/-- A text is written where its path leads, if a file can be there. -/
theorem exists_of_write (wrote : t.write path text = .ok t') :
    ∃ loc, t.Admits path loc ∧ t' = t.put loc (.file (.text text)) := by
  obtain ⟨⟨dir, last⟩, located, wrote⟩ := bind_eq_ok wrote
  obtain ⟨_, allowed, located⟩ := bind_eq_ok located
  obtain ⟨_, walked, located⟩ := bind_eq_ok located
  obtain ⟨_, entered, located⟩ := bind_eq_ok located
  cases located
  cases last : (Path.segments path).getLast? with
  | none =>
      rw [last] at wrote
      cases wrote
  | some name =>
      rw [last] at wrote
      dsimp only at wrote
      split at wrote
      · cases wrote
      · next proper =>
          obtain ⟨noSlash, proper⟩ : Text.endsWith path "/" = false ∧ isName name = true := by
            simpa using proper
          obtain ⟨notDot, notUp⟩ : name ≠ "." ∧ name ≠ ".." := by simpa [isName] using proper
          have segments : Path.segments path = (Path.segments path).dropLast ++ [name] :=
            (List.dropLast_append_getLast? name last).symm
          have target : step dir name = name :: dir := step_of_name notDot notUp
          have located : t.locate path = .ok (name :: dir) := by
            rw [locate, allowed, noSlash, if_neg Bool.false_ne_true, List.append_nil, segments,
              ← target]
            exact walk_append walked entered
          split at wrote
          · cases wrote
          · next free =>
              cases wrote
              exact ⟨_, ⟨located, last.symm, List.cons_ne_nil _ _, noSlash, free⟩, rfl⟩

/-- A file in a place where one can be leaves the directories as they are. -/
theorem Admits.sameDirectories (admits : t.Admits path loc) (content : Content) :
    SameDirectories t (t.put loc (.file content)) := by
  refine ⟨rfl, fun loc' => ?_⟩
  rw [node?_put admits.notRoot]
  by_cases here : loc' = loc
  · simp [here, admits.free]
  · rw [if_neg here]

/-- The tree with texts put at locations, one after the other. -/
def putAll (t : FileTree) : List (Location × String) → FileTree
  | [] => t
  | place :: rest => (t.put place.1 (.file (.text place.2))).putAll rest

/-- A location keeps a text if no other is put there. -/
theorem node?_putAll {places : List (Location × String)}
    (notRoot : ∀ place ∈ places, place.1 ≠ [])
    (agree : ∀ place ∈ places, place.1 = loc → place.2 = text)
    (there : (loc, text) ∈ places ∨ t.node? loc = some (.file (.text text))) :
    (t.putAll places).node? loc = some (.file (.text text)) := by
  induction places generalizing t with
  | nil => exact there.resolve_left List.not_mem_nil
  | cons place places ih =>
      refine ih (fun p member => notRoot p (List.mem_cons_of_mem _ member))
        (fun p member => agree p (List.mem_cons_of_mem _ member)) ?_
      rw [node?_put (notRoot place List.mem_cons_self)]
      by_cases here : loc = place.1
      · right
        rw [if_pos here, agree place List.mem_cons_self here.symm]
      · rw [if_neg here]
        refine there.imp_left fun member => (List.mem_cons.mp member).resolve_left ?_
        intro same
        exact here (congrArg Prod.fst same)

/-- All texts stay if no two of them are put at one location. -/
theorem forall_node?_putAll_iff {places : List (Location × String)}
    (notRoot : ∀ place ∈ places, place.1 ≠ []) :
    (∀ place ∈ places, (t.putAll places).node? place.1 = some (.file (.text place.2))) ↔
      ∀ place ∈ places, ∀ place' ∈ places, place.1 = place'.1 → place.2 = place'.2 := by
  constructor
  · intro stays place member place' member' same
    have one := stays place member
    have other := stays place' member'
    rw [same, other] at one
    simpa using one.symm
  · intro agree place member
    exact node?_putAll notRoot (fun place' member' same => agree place' member' place member same)
      (.inl member)

end IdlGen.FileTree
