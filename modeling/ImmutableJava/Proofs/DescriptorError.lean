import ImmutableJava.Proofs.DescriptorTemplate
import ImmutableJava.Proofs.OuterArguments

/-!
# What is reported about a descriptor

`errors` reads off a descriptor what is wrong with it, as the messages in the order in which
the walk over it meets them, and no template occurs in it.  A shape that cannot stand in a
signature is one error, and so is a text that is no name; neither is looked into any further.
A declared type has the errors of its type arguments and then those of its enclosing lists,
unless there are too many lists, which is one error in place of theirs.

The walk reports exactly these (`diagnostics_eq_errors`).  There is one more place where it
could report something, and it is never reached.  Type arguments are given to the enclosing
types from the inside out, and levels that are paired with the enclosing types in that order
are a chain, whichever of them have arguments; so none of them is refused.
-/

namespace ImmutableJava

open Reporting

namespace TypeDescriptor

/-! ## Errors -/

mutual

/-- The messages about a descriptor. -/
def errors : TypeDescriptor → List String
  | primitive _ => []
  | array component => errors component
  | declared name typeArguments enclosing =>
    match BinaryName.ofText? name with
    | none => ["invalid binary name: '" ++ name ++ "'"]
    | some raw =>
      errorsOfList typeArguments ++
        if raw.enclosingTypes.length < enclosing.length then
          ["too many enclosing type argument lists for " ++ raw.qualifiedName]
        else errorsOfLists enclosing
  | typeVariable _ => []
  | wildcard none none => []
  | wildcard (some bound) none => errors bound
  | wildcard none (some bound) => errors bound
  | wildcard (some _) (some _) => ["unexpected: wildcard with both bounds"]
  | void => ["void type not allowed"]
  | broken _ => ["type failed to compile"]
  | union _ => ["unexpected: union type"]
  | intersection _ => ["unexpected: intersection type"]

/-- The messages about the descriptors of a list, in order. -/
def errorsOfList : List TypeDescriptor → List String
  | [] => []
  | d :: ds => errors d ++ errorsOfList ds

/-- The messages about the descriptors of lists, in order. -/
def errorsOfLists : List (List TypeDescriptor) → List String
  | [] => []
  | ds :: levels => errorsOfList ds ++ errorsOfLists levels

end

/-- Messages as errors about an element. -/
def asErrors (element : String) (messages : List String) : List Diagnostic :=
  messages.map fun message => .error message (some element)

theorem asErrors_append (element : String) (first second : List String) :
    asErrors element (first ++ second) = asErrors element first ++ asErrors element second :=
  List.map_append

theorem asErrors_errorsOfList (element : String) (ds : List TypeDescriptor) :
    asErrors element (errorsOfList ds) = ds.flatMap fun d => asErrors element d.errors := by
  induction ds with
  | nil => rfl
  | cons d ds ih => rw [errorsOfList, asErrors_append, ih, List.flatMap_cons]

theorem asErrors_errorsOfLists (element : String) (levels : List (List TypeDescriptor)) :
    asErrors element (errorsOfLists levels) =
      levels.flatMap fun ds => asErrors element (errorsOfList ds) := by
  induction levels with
  | nil => rfl
  | cons ds levels ih => rw [errorsOfLists, asErrors_append, ih, List.flatMap_cons]

variable {element : String}

/-! ## Reports -/

theorem reports_unsupported (element : String) (problem : TypeProblem) :
    Reports (unsupported element problem) [.error problem.message (some element)]
      fun _ => True := by
  intro r hr
  rw [run_unsupported] at hr
  cases hr
  exact ⟨rfl, trivial⟩

theorem reports_templates {ds : List TypeDescriptor}
    (h : ∀ d ∈ ds, Reports (d.template element) (asErrors element d.errors) fun _ => True) :
    Reports (templates element ds) (asErrors element (errorsOfList ds)) fun _ => True := by
  rw [templates_eq_mapM, asErrors_errorsOfList]
  exact reports_mapM h

theorem reports_templateLists {levels : List (List TypeDescriptor)}
    (h : ∀ ds ∈ levels, ∀ d ∈ ds,
      Reports (d.template element) (asErrors element d.errors) fun _ => True) :
    Reports (templateLists element levels) (asErrors element (errorsOfLists levels))
      fun _ => True := by
  rw [templateLists_eq_mapM, asErrors_errorsOfLists]
  exact reports_mapM fun ds hds => reports_templates (h ds hds)

/-- The enclosing types of a type, with any arguments, are not refused. -/
theorem addOuterArgumentLists_zip_ne_misuse {raw : BinaryName} {ts : List Template}
    {plain : Template} (h : Template.declared raw ts = .ok plain) (tss : List (List Template))
    (refusal : TypeError) :
    plain.addOuterArgumentLists (raw.enclosingTypes.zip tss) ≠ .error (.misuse refusal) :=
  (Template.isRooted_of_declared h).addOuterArgumentLists_ne_misuse
    (Template.isChain_of_pairwise (raw.pairwise_zip_enclosingTypes tss)) refusal

theorem reports_withOuterArguments {plain : Template}
    {levels : List (BinaryName × List Template)}
    (h : ∀ refusal, plain.addOuterArgumentLists levels ≠ .error (.misuse refusal)) :
    Reports (withOuterArguments element plain levels) [] fun _ => True := by
  unfold withOuterArguments
  split
  · exact reports_pure trivial
  · exact fun r hr => absurd hr (by simp)
  · rename_i refusal hrefused
    exact absurd hrefused (h refusal)

theorem reports_template_declared {name : String} {arguments : List TypeDescriptor}
    {enclosing : List (List TypeDescriptor)}
    (harguments : Reports (templates element arguments)
      (asErrors element (errorsOfList arguments)) fun _ => True)
    (henclosing : Reports (templateLists element enclosing)
      (asErrors element (errorsOfLists enclosing)) fun _ => True) :
    Reports (template element (.declared name arguments enclosing))
      (asErrors element (errors (.declared name arguments enclosing))) fun _ => True := by
  rw [template, errors, BinaryName.ofText]
  cases BinaryName.ofText? name with
  | none => exact reports_unsupported element _
  | some raw =>
    rw [asErrors_append]
    refine harguments.bind fun ts _ => ?_
    -- the template of the type is remembered, for it is rooted at the type
    have hplain : Reports (align (Template.declared raw ts)) []
        fun plain => Template.declared raw ts = .ok plain := reports_align_eq _
    refine hplain.bind fun plain hmade => ?_
    split
    · exact reports_unsupported element _
    · refine henclosing.bind_nil fun tss _ => reports_withOuterArguments fun refusal => ?_
      exact addOuterArgumentLists_zip_ne_misuse hmade tss refusal

/-- The walk over a descriptor reports its errors. -/
theorem reports_template (element : String) (d : TypeDescriptor) :
    Reports (d.template element) (asErrors element d.errors) fun _ => True := by
  induction d using TypeDescriptor.induction with
  | primitive name => exact reports_align _
  | array component ih => exact ih.bind_nil fun _ _ => reports_align _
  | declared name arguments enclosing ih ihl =>
    exact reports_template_declared (reports_templates ih) (reports_templateLists ihl)
  | typeVariable name => exact reports_align _
  | wildcard extendsBound superBound ihe ihs =>
    rcases extendsBound with _ | b <;> rcases superBound with _ | c
    · exact reports_align _
    · exact (ihs c rfl).bind_nil fun _ _ => reports_align _
    · exact (ihe b rfl).bind_nil fun _ _ => reports_align _
    · exact reports_unsupported element _
  | void => exact reports_unsupported element _
  | broken name => exact reports_unsupported element _
  | union alternatives => exact reports_unsupported element _
  | intersection bounds => exact reports_unsupported element _

/-- If no template of a walk is misaligned, the walk reports the errors of the descriptor,
each of them once and in order.  A refusal to give arguments to enclosing types is not
among them, since there is none. -/
theorem diagnostics_eq_errors {d : TypeDescriptor} {r : Reported Template}
    (h : (d.template element).run = .ok r) :
    r.diagnostics = d.errors.map (fun message => .error message (some element)) ∧
      ∀ raw ts plain tss refusal, Template.declared raw ts = .ok plain →
        plain.addOuterArgumentLists (raw.enclosingTypes.zip tss) ≠ .error (.misuse refusal) :=
  ⟨(reports_template element d r h).1, fun _ _ _ tss refusal hplain =>
    addOuterArgumentLists_zip_ne_misuse hplain tss refusal⟩

/-- A type argument with two bounds, a name that is none, and a list too many keep what is in
them to themselves; the list of the outer type is looked into. -/
theorem diagnostics_eq_errors_nested :
    ∃ r, ((array (declared "a.Outer$Inner"
        [wildcard (some void) (some void), declared "" [void] [],
          declared "a.B" [intersection [void]] [[void]]]
        [[union [void], array (declared "a.B" [] []), void]])).template "a.T#m()").run = .ok r ∧
      r.diagnostics =
        [.error "unexpected: wildcard with both bounds" (some "a.T#m()"),
          .error "invalid binary name: ''" (some "a.T#m()"),
          .error "unexpected: intersection type" (some "a.T#m()"),
          .error "too many enclosing type argument lists for a.B" (some "a.T#m()"),
          .error "unexpected: union type" (some "a.T#m()"),
          .error "void type not allowed" (some "a.T#m()")] :=
  (isOk_iff.1 (by decide +kernel)).imp fun _ hrun =>
    ⟨hrun, (diagnostics_eq_errors hrun).1.trans (by decide +kernel)⟩

end TypeDescriptor

end ImmutableJava
