import LuaDocs.Registry.Basic

/-!
# Types that functions refer to

The documentation of some functions comes with that of the types they refer to, directly or through
other types. Types come in the order in which they are first mentioned: those of the functions, then
those that these types mention, and so on.
-/

namespace LuaDocs.Registry

def declaredNames (types : List TypeExpr) : List Text :=
  types.flatMap fun t => t.subterms.filterMap TypeExpr.declaredName?

/-- The names seen after some further names, and the declarations of those not seen before. -/
def discover (r : Registry) (seen : List Text) : List Text → List Text × List TypeDoc
  | [] => (seen, [])
  | name :: rest =>
    if seen.contains name then discover r seen rest
    else
      let (seen, found) := discover r (name :: seen) rest
      (seen, (r.type? name).toList ++ found)

def unseen (r : Registry) (seen : List Text) : List TypeDoc :=
  r.types.filter fun t => !seen.contains t.name

theorem unseen_cons (r : Registry) (name : Text) (seen : List Text) :
    r.unseen (name :: seen) = (r.unseen seen).filter (·.name != name) := by
  simp only [unseen, List.filter_filter]
  refine List.filter_congr fun t _ => ?_
  simp only [List.contains_cons, Bool.not_or]
  rfl

theorem length_unseen_cons_le (r : Registry) (name : Text) (seen : List Text) :
    (r.unseen (name :: seen)).length ≤ (r.unseen seen).length := by
  rw [unseen_cons]
  exact List.length_filter_le _ _

theorem length_unseen_cons_lt {r : Registry} {name : Text} {seen : List Text} {t : TypeDoc}
    (ht : r.type? name = some t) (hseen : seen.contains name = false) :
    (r.unseen (name :: seen)).length < (r.unseen seen).length := by
  have hname : t.name = name := by simpa using List.find?_some ht
  have hmem : t ∈ r.unseen seen := by
    rw [unseen, List.mem_filter, hname, hseen]
    exact ⟨List.mem_of_find?_eq_some ht, rfl⟩
  rw [unseen_cons, List.length_filter_lt_length_iff_exists]
  exact ⟨t, hmem, by simp [hname]⟩

theorem length_discover_le (r : Registry) (seen names : List Text) :
    (r.discover seen names).2.length + (r.unseen (r.discover seen names).1).length ≤
      (r.unseen seen).length := by
  induction names generalizing seen with
  | nil => simp [discover]
  | cons name rest ih =>
    by_cases hseen : seen.contains name
    · simpa only [discover, hseen, if_true] using ih seen
    · have hstep := ih (name :: seen)
      simp only [discover, hseen, Bool.false_eq_true, if_false, List.length_append]
      cases ht : r.type? name with
      | none =>
        have := r.length_unseen_cons_le name seen
        simp only [Option.toList, List.length_nil]
        omega
      | some t =>
        have := length_unseen_cons_lt ht (by simpa using hseen)
        simp only [Option.toList, List.length_cons, List.length_nil]
        omega

/-- The declarations in a queue and those that they lead to. -/
def follow (r : Registry) (seen : List Text) : List TypeDoc → List TypeDoc
  | [] => []
  | t :: queue =>
    t :: follow r (r.discover seen (declaredNames t.types)).1
      (queue ++ (r.discover seen (declaredNames t.types)).2)
termination_by queue => queue.length + (r.unseen seen).length
decreasing_by
  have := r.length_discover_le seen (declaredNames t.types)
  simp only [List.length_append, List.length_cons]
  omega

/-- The declarations that some functions refer to, directly or through other declarations. -/
def referencedTypes (r : Registry) (functions : List FunctionDoc) : List TypeDoc :=
  let (seen, found) := r.discover [] (declaredNames (functions.flatMap (·.types)))
  r.follow seen found

end LuaDocs.Registry
