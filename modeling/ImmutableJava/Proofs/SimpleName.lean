import ImmutableJava.Import.Conflict
import Mathlib.Data.List.Induction
import Mathlib.Data.List.Nodup
import Mathlib.Tactic.ByContra

/-!
# Types grouped by simple name

`SimpleName.groups` is one pass over a list of types that appends each type to the
group of its name.  The result does not show the pass: the groups have distinct
names, and the group of a name is what a filter finds (`mem_groups_iff`).

For a list without repetition a group has two members exactly when two different
types bear its name (`mem_conflicts_iff`).  So a type is in conflict when another type
of the list has its simple name (`mem_flatMap_conflicts_iff`), and there is no conflict
when simple names identify the types (`conflicts_eq_nil_iff`).
-/

namespace ImmutableJava

namespace SortedSet

variable {α : Type} [Ord α] [Std.TransOrd α] [Std.LawfulEqOrd α]

omit [Std.TransOrd α] in
/-- A sorted set lists no member twice. -/
theorem nodup_toList (s : SortedSet α) : s.toList.Nodup :=
  s.sorted.imp fun {a b} h => by
    rintro rfl
    exact absurd h (by simp)

end SortedSet

namespace SimpleName

/-- The types of a list with a given simple name. -/
def bearers (name : String) (types : List BinaryName) : List BinaryName :=
  types.filter fun t => t.simpleName = name

theorem mem_bearers {name : String} {types : List BinaryName} {t : BinaryName} :
    t ∈ bearers name types ↔ t ∈ types ∧ t.simpleName = name := by
  simp [bearers]

theorem bearers_concat (name : String) (types : List BinaryName) (t : BinaryName) :
    bearers name (types ++ [t]) =
      if t.simpleName = name then bearers name types ++ [t] else bearers name types := by
  rw [bearers, List.filter_append, bearers]
  split
  · rename_i h
    simp [h]
  · rename_i h
    simp [h]

/-! ## One step -/

theorem map_fst_addToGroup (t : BinaryName) (gs : List Group) :
    (addToGroup t gs).map (·.1) =
      if t.simpleName ∈ gs.map (·.1) then gs.map (·.1) else gs.map (·.1) ++ [t.simpleName] := by
  induction gs with
  | nil => rfl
  | cons g gs ih =>
    unfold addToGroup
    split
    · rename_i h
      simp [h]
    · rename_i h
      have hmem : t.simpleName ∈ (g :: gs).map (·.1) ↔ t.simpleName ∈ gs.map (·.1) := by
        simp [Ne.symm h]
      by_cases hgs : t.simpleName ∈ gs.map (·.1)
      · rw [if_pos (hmem.2 hgs), List.map_cons, ih, if_pos hgs]
        rfl
      · rw [if_neg (mt hmem.1 hgs), List.map_cons, ih, if_neg hgs]
        rfl

/-- A step keeps the groups of the other names. -/
theorem mem_addToGroup_of_ne {t : BinaryName} {gs : List Group} {g : Group}
    (h : g.1 ≠ t.simpleName) : g ∈ addToGroup t gs ↔ g ∈ gs := by
  induction gs with
  | nil =>
    have hne : g ≠ (t.simpleName, [t]) := fun he => h (by rw [he])
    simp [addToGroup, hne]
  | cons head gs ih =>
    unfold addToGroup
    split
    · rename_i hhead
      have hne : g ≠ (head.1, head.2 ++ [t]) := fun he => h (by rw [he, hhead])
      have hne' : g ≠ head := fun he => h (by rw [he, hhead])
      simp [hne, hne']
    · rw [List.mem_cons, List.mem_cons, ih]

/-- A step makes the group of its type, or extends it. -/
theorem mem_addToGroup_self {t : BinaryName} {gs : List Group} (h : (gs.map (·.1)).Nodup)
    {members : List BinaryName} :
    (t.simpleName, members) ∈ addToGroup t gs ↔
      (∃ old, (t.simpleName, old) ∈ gs ∧ members = old ++ [t]) ∨
        t.simpleName ∉ gs.map (·.1) ∧ members = [t] := by
  induction gs with
  | nil => simp [addToGroup]
  | cons head gs ih =>
    obtain ⟨name, first⟩ := head
    obtain ⟨hhead, hnodup⟩ := List.nodup_cons.1 h
    unfold addToGroup
    split
    · rename_i hname
      subst hname
      -- the names are distinct, so no later group has this one
      have hlater : ∀ members, (t.simpleName, members) ∉ gs := fun members hmem =>
        hhead (List.mem_map.2 ⟨_, hmem, rfl⟩)
      simp [hlater]
    · rename_i hname
      have hname' : t.simpleName ≠ name := Ne.symm hname
      simp [hname', ih hnodup]

/-! ## All groups -/

theorem groups_concat (types : List BinaryName) (t : BinaryName) :
    groups (types ++ [t]) = addToGroup t (groups types) := by
  rw [groups, List.foldl_append]
  rfl

theorem nodup_map_fst_groups (types : List BinaryName) : ((groups types).map (·.1)).Nodup := by
  induction types using List.reverseRecOn with
  | nil => exact List.nodup_nil
  | append_singleton types t ih =>
    rw [groups_concat, map_fst_addToGroup]
    split
    · exact ih
    · rename_i h
      refine List.nodup_append.2 ⟨ih, List.nodup_singleton _, ?_⟩
      intro a ha b hb hab
      rw [hab, List.mem_singleton.1 hb] at ha
      exact h ha

/-- The groups are the types of one simple name, for each name that occurs. -/
theorem mem_groups_iff {types : List BinaryName} {name : String} {members : List BinaryName} :
    (name, members) ∈ groups types ↔ members = bearers name types ∧ members ≠ [] := by
  induction types using List.reverseRecOn generalizing members with
  | nil =>
    constructor
    · intro h
      exact absurd h List.not_mem_nil
    · rintro ⟨h, hne⟩
      exact absurd h hne
  | append_singleton types t ih =>
    rw [groups_concat, bearers_concat]
    by_cases hname : t.simpleName = name
    · subst hname
      rw [mem_addToGroup_self (nodup_map_fst_groups types), if_pos rfl]
      constructor
      · rintro (⟨old, hold, rfl⟩ | ⟨hnew, rfl⟩)
        · exact ⟨by rw [← (ih.1 hold).1], by simp⟩
        · have hbearers : bearers t.simpleName types = [] := by
            by_contra hne
            exact hnew (List.mem_map.2 ⟨_, ih.2 ⟨rfl, hne⟩, rfl⟩)
          exact ⟨by rw [hbearers]; rfl, by simp⟩
      · rintro ⟨rfl, -⟩
        by_cases hbearers : bearers t.simpleName types = []
        · refine .inr ⟨fun hold => ?_, by rw [hbearers]; rfl⟩
          obtain ⟨⟨name, old⟩, hmem, hname⟩ := List.mem_map.1 hold
          obtain rfl : name = t.simpleName := hname
          obtain ⟨hmembers, hne⟩ := ih.1 hmem
          exact hne (hmembers.trans hbearers)
        · exact .inl ⟨_, ih.2 ⟨rfl, hbearers⟩, rfl⟩
    · rw [mem_addToGroup_of_ne (g := (name, members)) (Ne.symm hname), if_neg hname, ih]

/-! ## Conflicts -/

theorem exists_ne_of_one_lt_length {l : List BinaryName} (hnodup : l.Nodup)
    (hlength : 1 < l.length) (t : BinaryName) : ∃ u ∈ l, u ≠ t := by
  match l, hnodup, hlength with
  | a :: b :: l, hnodup, _ =>
    have hab : a ≠ b := by
      rintro rfl
      exact (List.nodup_cons.1 hnodup).1 List.mem_cons_self
    by_cases ha : a = t
    · exact ⟨b, by simp, fun hb => hab (ha.trans hb.symm)⟩
    · exact ⟨a, by simp, ha⟩

theorem one_lt_length_of_mem_of_ne {l : List BinaryName} {t u : BinaryName} (ht : t ∈ l)
    (hu : u ∈ l) (h : u ≠ t) : 1 < l.length := by
  match l, ht, hu with
  | [a], ht, hu => exact absurd ((List.mem_singleton.1 hu).trans (List.mem_singleton.1 ht).symm) h
  | a :: b :: l, _, _ => simp

/-- A simple name that at least two types of a list bear. -/
def IsShared (types : List BinaryName) (name : String) : Prop :=
  ∃ t ∈ types, ∃ u ∈ types, u ≠ t ∧ t.simpleName = name ∧ u.simpleName = name

/-- The conflicts are the shared simple names, each with all the types that bear it. -/
theorem mem_conflicts_iff {types : List BinaryName} (hnodup : types.Nodup) {name : String}
    {members : List BinaryName} :
    (name, members) ∈ conflicts types ↔ IsShared types name ∧ members = bearers name types := by
  rw [conflicts, List.mem_filter, mem_groups_iff]
  constructor
  · rintro ⟨⟨rfl, hne⟩, hlength⟩
    have hnodup' : (bearers name types).Nodup := hnodup.filter _
    obtain ⟨t, ht⟩ := List.exists_mem_of_ne_nil _ hne
    obtain ⟨u, hu, hut⟩ := exists_ne_of_one_lt_length hnodup' (by simpa using hlength) t
    obtain ⟨ht, htname⟩ := mem_bearers.1 ht
    obtain ⟨hu, huname⟩ := mem_bearers.1 hu
    exact ⟨⟨t, ht, u, hu, hut, htname, huname⟩, rfl⟩
  · rintro ⟨⟨t, ht, u, hu, hut, htname, huname⟩, rfl⟩
    have ht' : t ∈ bearers name types := mem_bearers.2 ⟨ht, htname⟩
    have hu' : u ∈ bearers name types := mem_bearers.2 ⟨hu, huname⟩
    refine ⟨⟨rfl, List.ne_nil_of_mem ht'⟩, ?_⟩
    simpa using one_lt_length_of_mem_of_ne ht' hu' hut

/-- A type is in conflict when another type of the list has its simple name. -/
theorem mem_flatMap_conflicts_iff {types : List BinaryName} (hnodup : types.Nodup)
    {t : BinaryName} :
    t ∈ (conflicts types).flatMap (·.2) ↔
      t ∈ types ∧ ∃ u ∈ types, u ≠ t ∧ u.simpleName = t.simpleName := by
  rw [List.mem_flatMap]
  constructor
  · rintro ⟨⟨name, members⟩, hg, ht⟩
    obtain ⟨⟨a, ha, b, hb, hba, haname, hbname⟩, rfl⟩ := (mem_conflicts_iff hnodup).1 hg
    obtain ⟨ht', rfl⟩ := mem_bearers.1 ht
    by_cases hat : a = t
    · exact ⟨ht', b, hb, hat ▸ hba, hbname⟩
    · exact ⟨ht', a, ha, hat, haname⟩
  · rintro ⟨ht, u, hu, hne, hname⟩
    exact ⟨(t.simpleName, bearers t.simpleName types),
      (mem_conflicts_iff hnodup).2 ⟨⟨t, ht, u, hu, hne, rfl, hname⟩, rfl⟩,
      mem_bearers.2 ⟨ht, rfl⟩⟩

/-- There is no conflict when simple names identify the types. -/
theorem conflicts_eq_nil_iff {types : List BinaryName} (hnodup : types.Nodup) :
    conflicts types = [] ↔
      ∀ t ∈ types, ∀ u ∈ types, u.simpleName = t.simpleName → u = t := by
  constructor
  · intro h t ht u hu hname
    by_contra hne
    have hmem := (mem_conflicts_iff hnodup).2 ⟨⟨t, ht, u, hu, hne, rfl, hname⟩, rfl⟩
    rw [h] at hmem
    exact absurd hmem List.not_mem_nil
  · intro h
    refine List.eq_nil_iff_forall_not_mem.2 ?_
    rintro ⟨name, members⟩ hg
    obtain ⟨⟨t, ht, u, hu, hne, rfl, hname⟩, -⟩ := (mem_conflicts_iff hnodup).1 hg
    exact hne (h t ht u hu hname)

end SimpleName

/-- Types can be available together when simple names identify them. -/
theorem checkDistinct_eq_ok_iff {types : SortedSet BinaryName} :
    checkDistinct types = .ok () ↔
      ∀ t ∈ types, ∀ u ∈ types, u.simpleName = t.simpleName → u = t := by
  have hiff := SimpleName.conflicts_eq_nil_iff types.nodup_toList
  simp only [SortedSet.mem_toList] at hiff
  rw [← hiff, checkDistinct]
  cases SimpleName.conflicts types.toList <;> simp

end ImmutableJava
