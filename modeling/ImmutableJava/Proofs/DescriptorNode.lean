import ImmutableJava.TypeDescriptor

/-!
# The nodes of a descriptor

Descriptors nest through lists, through lists of lists and through bounds that may be
missing.  `TypeDescriptor.induction` offers the induction hypothesis for every element at
once, so proofs about descriptors need no second statement about lists of them.

`nodes` lists all descriptors that occur in a descriptor at any depth, itself included:
type arguments, arguments of enclosing types, components, bounds and alternatives.  The
names that a descriptor is made of and the types that it declares are read off its nodes.
-/

namespace ImmutableJava

namespace TypeDescriptor

/-- Induction on descriptors, with a hypothesis for each element of a list. -/
@[elab_as_elim]
theorem induction {P : TypeDescriptor → Prop} (primitive : ∀ name, P (.primitive name))
    (array : ∀ component, P component → P (.array component))
    (declared : ∀ name arguments enclosing, (∀ a ∈ arguments, P a) →
      (∀ level ∈ enclosing, ∀ a ∈ level, P a) → P (.declared name arguments enclosing))
    (typeVariable : ∀ name, P (.typeVariable name))
    (wildcard : ∀ extendsBound superBound, (∀ b ∈ extendsBound, P b) → (∀ b ∈ superBound, P b) →
      P (.wildcard extendsBound superBound))
    (void : P .void) (broken : ∀ name, P (.broken name))
    (union : ∀ alternatives, (∀ a ∈ alternatives, P a) → P (.union alternatives))
    (intersection : ∀ bounds, (∀ b ∈ bounds, P b) → P (.intersection bounds))
    (d : TypeDescriptor) : P d := by
  refine @TypeDescriptor.rec P (fun l => ∀ a ∈ l, P a) (fun levels => ∀ l ∈ levels, ∀ a ∈ l, P a)
    (fun bound => ∀ b ∈ bound, P b) primitive array declared typeVariable wildcard void broken
    union intersection ?_ ?_ ?_ ?_ ?_ ?_ d
  · exact fun a ha => absurd ha List.not_mem_nil
  · exact fun _ _ hd hl => List.forall_mem_cons.2 ⟨hd, hl⟩
  · exact fun l hl => absurd hl List.not_mem_nil
  · exact fun _ _ hl hlevels => List.forall_mem_cons.2 ⟨hl, hlevels⟩
  · exact fun b hb => absurd hb (Option.not_mem_none b)
  · exact fun d hd b hb => Option.mem_some.1 hb ▸ hd

/-! ## Nodes -/

mutual

/-- The descriptors that occur in a descriptor, itself included. -/
def nodes : TypeDescriptor → List TypeDescriptor
  | primitive name => [primitive name]
  | array component => array component :: nodes component
  | declared name arguments enclosing =>
    declared name arguments enclosing :: (nodesOfList arguments ++ nodesOfLists enclosing)
  | typeVariable name => [typeVariable name]
  | wildcard extendsBound superBound =>
    wildcard extendsBound superBound :: (nodesOfBound extendsBound ++ nodesOfBound superBound)
  | void => [void]
  | broken name => [broken name]
  | union alternatives => union alternatives :: nodesOfList alternatives
  | intersection bounds => intersection bounds :: nodesOfList bounds

/-- The descriptors that occur in the descriptors of a list. -/
def nodesOfList : List TypeDescriptor → List TypeDescriptor
  | [] => []
  | d :: ds => nodes d ++ nodesOfList ds

/-- The descriptors that occur in the descriptors of lists. -/
def nodesOfLists : List (List TypeDescriptor) → List TypeDescriptor
  | [] => []
  | ds :: levels => nodesOfList ds ++ nodesOfLists levels

/-- The descriptors that occur in a bound, if there is one. -/
def nodesOfBound : Option TypeDescriptor → List TypeDescriptor
  | none => []
  | some bound => nodes bound

end

theorem nodesOfList_cons (d : TypeDescriptor) (ds : List TypeDescriptor) :
    nodesOfList (d :: ds) = nodes d ++ nodesOfList ds := rfl

theorem nodesOfLists_cons (ds : List TypeDescriptor) (levels : List (List TypeDescriptor)) :
    nodesOfLists (ds :: levels) = nodesOfList ds ++ nodesOfLists levels := rfl

@[simp] theorem nodesOfBound_none : nodesOfBound none = [] := rfl

@[simp] theorem nodesOfBound_some (bound : TypeDescriptor) :
    nodesOfBound (some bound) = bound.nodes := rfl

theorem nodesOfList_eq (ds : List TypeDescriptor) : nodesOfList ds = ds.flatMap nodes := by
  induction ds with
  | nil => rfl
  | cons d ds ih => rw [nodesOfList_cons, ih, List.flatMap_cons]

theorem nodesOfLists_eq (levels : List (List TypeDescriptor)) :
    nodesOfLists levels = levels.flatMap fun ds => ds.flatMap nodes := by
  induction levels with
  | nil => rfl
  | cons ds levels ih => rw [nodesOfLists_cons, ih, nodesOfList_eq, List.flatMap_cons]

theorem nodes_declared (name : String) (arguments : List TypeDescriptor)
    (enclosing : List (List TypeDescriptor)) :
    (declared name arguments enclosing).nodes =
      declared name arguments enclosing ::
        (arguments.flatMap nodes ++ enclosing.flatMap fun ds => ds.flatMap nodes) := by
  rw [nodes, nodesOfList_eq, nodesOfLists_eq]

theorem filterMap_nodes_declared {β : Type} (f : TypeDescriptor → Option β) (name : String)
    (arguments : List TypeDescriptor) (enclosing : List (List TypeDescriptor)) :
    (declared name arguments enclosing).nodes.filterMap f =
      (f (declared name arguments enclosing)).toList ++
        (arguments.flatMap (fun a => a.nodes.filterMap f) ++
          enclosing.flatMap fun ds => ds.flatMap fun a => a.nodes.filterMap f) := by
  rw [nodes_declared, List.filterMap_cons]
  simp only [List.filterMap_append, List.filterMap_flatMap]
  cases f (declared name arguments enclosing) with
  | none => rfl
  | some b => rfl

/-! ## Names -/

/-- The name that a descriptor has itself, apart from its parts. -/
def ownName? : TypeDescriptor → Option String
  | primitive name => some name
  | declared name _ _ => some name
  | typeVariable name => some name
  | _ => none

/-- The names that a descriptor is made of, at any depth. -/
def names (d : TypeDescriptor) : List String := d.nodes.filterMap ownName?

@[simp] theorem names_primitive (name : String) : (primitive name).names = [name] := rfl

@[simp] theorem names_typeVariable (name : String) : (typeVariable name).names = [name] := rfl

@[simp] theorem names_declared (name : String) (arguments : List TypeDescriptor)
    (enclosing : List (List TypeDescriptor)) :
    (declared name arguments enclosing).names =
      name :: (arguments.flatMap names ++ enclosing.flatMap fun ds => ds.flatMap names) :=
  filterMap_nodes_declared ownName? name arguments enclosing

theorem mem_names_wildcard {name : String} {extendsBound superBound : Option TypeDescriptor} :
    name ∈ (wildcard extendsBound superBound).names ↔
      (∃ b ∈ extendsBound, name ∈ b.names) ∨ ∃ b ∈ superBound, name ∈ b.names := by
  have hnodes : (wildcard extendsBound superBound).names =
      (nodesOfBound extendsBound ++ nodesOfBound superBound).filterMap ownName? := rfl
  rw [hnodes, List.filterMap_append, List.mem_append]
  rcases extendsBound with _ | b <;> rcases superBound with _ | c <;>
    simp [names]

/-- The name of a class or interface, if the descriptor is one. -/
def declaredName? : TypeDescriptor → Option String
  | declared name _ _ => some name
  | _ => none

/-- The names of the classes and interfaces in a descriptor, at any depth. -/
def declaredNames (d : TypeDescriptor) : List String := d.nodes.filterMap declaredName?

end TypeDescriptor

end ImmutableJava
