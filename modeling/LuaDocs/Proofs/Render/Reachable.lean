import LuaDocs.Proofs.TypeExpr.Naming
import LuaDocs.Render.Reachable
import Mathlib.Data.List.Nodup
import Mathlib.Data.List.Perm.Subperm

/-!
# Declarations that functions lead to

The declarations found from some functions are those of the names that their types lead to. The search
keeps the names that it has seen and a queue of the declarations found; one lemma says which names a
declaration adds to both, and the rest is induction over the search: what it finds is new, is reached, and
is all that is reached. That the declarations may refer to one another in circles plays no part.
-/

namespace LuaDocs.Registry

variable {r : Registry} {types types' : List TypeExpr} {seen names : List Text} {n : Text}
  {queue : List TypeDoc} {t d : TypeDoc} {functions : List FunctionDoc}

/-! ### Names that types lead to -/

/-- Some types lead to a name if it stands in one of them, at any depth, or in the declaration of a name
that they lead to. -/
inductive Reaches (r : Registry) (types : List TypeExpr) : Text → Prop
  | mentioned {n : Text} {t : TypeExpr} (ht : t ∈ types) (hn : (TypeExpr.declared n).Inside t) :
    Reaches r types n
  | followed {m n : Text} {d : TypeDoc} {t : TypeExpr} (hm : Reaches r types m)
    (hd : r.type? m = some d) (ht : t ∈ d.types) (hn : (TypeExpr.declared n).Inside t) :
    Reaches r types n

theorem Reaches.mono (h : Reaches r types n) (hsub : types ⊆ types') : Reaches r types' n := by
  induction h with
  | mentioned ht hn => exact .mentioned (hsub ht) hn
  | followed _ hd ht hn ih => exact .followed ih hd ht hn

theorem mem_declaredNames :
    n ∈ declaredNames types ↔ ∃ t ∈ types, (TypeExpr.declared n).Inside t := by
  rw [declaredNames, List.mem_flatMap]
  refine exists_congr fun t => and_congr_right fun _ => ?_
  rw [List.mem_filterMap, ← TypeExpr.mem_subterms_iff]
  refine ⟨?_, fun h => ⟨_, h, rfl⟩⟩
  rintro ⟨s, hs, hn⟩
  cases s with
  | declared m =>
    obtain rfl := Option.some.inj hn
    exact hs
  | _ => cases hn

theorem name_of_type? (h : r.type? n = some t) : t.name = n := by
  simpa using List.find?_some h

/-! ### New names -/

/-- The names that have not been seen, each once, in the order in which they are first mentioned. -/
def fresh (seen names : List Text) : List Text :=
  (names.filter (!seen.contains ·)).eraseDups

theorem mem_fresh : n ∈ fresh seen names ↔ n ∈ names ∧ n ∉ seen := by
  simp [fresh]

theorem fresh_nil_left (names : List Text) : fresh [] names = names.eraseDups := by
  have hall : names.filter (!([] : List Text).contains ·) = names := List.filter_eq_self.2 fun _ _ => rfl
  rw [fresh, hall]

theorem fresh_cons_of_mem (h : n ∈ seen) (names : List Text) :
    fresh seen (n :: names) = fresh seen names := by
  rw [fresh, List.filter_cons_of_neg (by simpa using h), fresh]

theorem fresh_cons_of_not_mem (h : n ∉ seen) (names : List Text) :
    fresh seen (n :: names) = n :: fresh (n :: seen) names := by
  rw [fresh, List.filter_cons_of_pos (by simpa using h), List.eraseDups_cons, List.filter_filter, fresh]
  simp only [List.contains_cons, Bool.not_or]

theorem nodup_fresh (seen names : List Text) : (fresh seen names).Nodup := by
  induction names generalizing seen with
  | nil => exact List.nodup_nil
  | cons n names ih =>
    by_cases h : n ∈ seen
    · rw [fresh_cons_of_mem h]
      exact ih seen
    · rw [fresh_cons_of_not_mem h, List.nodup_cons, mem_fresh]
      exact ⟨fun hn => hn.2 List.mem_cons_self, ih (n :: seen)⟩

theorem discover_eq (r : Registry) (seen names : List Text) :
    r.discover seen names =
      ((fresh seen names).reverse ++ seen, (fresh seen names).filterMap r.type?) := by
  induction names generalizing seen with
  | nil => rfl
  | cons n names ih =>
    rw [discover]
    by_cases h : n ∈ seen
    · rw [fresh_cons_of_mem h, if_pos (List.contains_iff_mem.2 h), ih]
    · rw [fresh_cons_of_not_mem h, if_neg (List.contains_iff_mem.not.2 h), ih, List.reverse_cons,
        List.append_assoc, List.singleton_append]
      cases hn : r.type? n with
      | none => rw [List.filterMap_cons_none hn]; rfl
      | some t => rw [List.filterMap_cons_some hn]; rfl

/-- Looking names up gives declarations of these names, in their order. -/
theorem map_name_sublist (r : Registry) (names : List Text) :
    ((names.filterMap r.type?).map (·.name)).Sublist names := by
  induction names with
  | nil => exact .slnil
  | cons n names ih =>
    cases hn : r.type? n with
    | none =>
      rw [List.filterMap_cons_none hn]
      exact ih.cons n
    | some t =>
      rw [List.filterMap_cons_some hn, List.map_cons, name_of_type? hn]
      exact ih.cons_cons n

/-! ### The search -/

/-- The search gives out its queue first. What it adds are declarations of names not seen before. -/
theorem follow_eq_append (r : Registry) (seen : List Text) (queue : List TypeDoc) :
    ∃ later, r.follow seen queue = queue ++ later ∧ (later.map (·.name)).Nodup ∧
      ∀ t ∈ later, t.name ∉ seen := by
  fun_induction r.follow seen queue with
  | case1 seen => exact ⟨[], rfl, List.nodup_nil, nofun⟩
  | case2 seen t queue ih =>
    rw [discover_eq] at ih ⊢
    obtain ⟨later, hfollow, hnodup, hunseen⟩ := ih
    have hfound := map_name_sublist r (fresh seen (declaredNames t.types))
    refine ⟨(fresh seen (declaredNames t.types)).filterMap r.type? ++ later, ?_, ?_, fun d hd => ?_⟩
    · rw [hfollow, List.append_assoc, List.cons_append]
    · -- The names found in this step have been seen when the later ones are found.
      rw [List.map_append]
      refine (hfound.nodup (nodup_fresh _ _)).append hnodup fun n hn hlater => ?_
      obtain ⟨d, hd, rfl⟩ := List.mem_map.1 hlater
      exact hunseen d hd (List.mem_append_left _ (List.mem_reverse.2 (hfound.mem hn)))
    · rcases List.mem_append.1 hd with hd | hd
      · exact (mem_fresh.1 (hfound.mem (List.mem_map_of_mem hd))).2
      · exact fun hseen => hunseen d hd (List.mem_append_right _ hseen)

/-- What the search finds is reached if its queue is. -/
theorem reaches_of_mem_follow (hqueue : ∀ t ∈ queue, ∃ n, r.Reaches types n ∧ r.type? n = some t) :
    ∀ t ∈ r.follow seen queue, ∃ n, r.Reaches types n ∧ r.type? n = some t := by
  fun_induction r.follow seen queue with
  | case1 seen => exact nofun
  | case2 seen t queue ih =>
    rw [discover_eq] at ih ⊢
    obtain ⟨⟨m, hm, ht⟩, hqueue⟩ := List.forall_mem_cons.1 hqueue
    refine List.forall_mem_cons.2 ⟨⟨m, hm, ht⟩, ih (List.forall_mem_append.2 ⟨hqueue, fun d hd => ?_⟩)⟩
    obtain ⟨n, hn, hd⟩ := List.mem_filterMap.1 hd
    obtain ⟨s, hs, hn⟩ := mem_declaredNames.1 (mem_fresh.1 hn).1
    exact ⟨n, .followed hm ht hs hn, hd⟩

/-- What a found declaration refers to has been seen before or is found too. -/
theorem mem_follow_of_mem_declaredNames :
    ∀ t ∈ r.follow seen queue, ∀ n ∈ declaredNames t.types, ∀ d, r.type? n = some d →
      n ∈ seen ∨ d ∈ r.follow seen queue := by
  fun_induction r.follow seen queue with
  | case1 seen => exact nofun
  | case2 seen t queue ih =>
    rw [discover_eq] at ih ⊢
    obtain ⟨later, hfollow, -⟩ := r.follow_eq_append
      ((fresh seen (declaredNames t.types)).reverse ++ seen)
      (queue ++ (fresh seen (declaredNames t.types)).filterMap r.type?)
    -- A new name joins the queue, and the whole queue is given out.
    have hnew : ∀ n ∈ fresh seen (declaredNames t.types), ∀ d, r.type? n = some d →
        d ∈ t :: r.follow ((fresh seen (declaredNames t.types)).reverse ++ seen)
          (queue ++ (fresh seen (declaredNames t.types)).filterMap r.type?) := by
      intro n hn d hd
      rw [hfollow]
      refine List.mem_cons_of_mem t (List.mem_append_left _ (List.mem_append_right _ ?_))
      exact List.mem_filterMap.2 ⟨n, hn, hd⟩
    refine List.forall_mem_cons.2 ⟨fun n hn d hd => ?_, fun u hu n hn d hd => ?_⟩
    · by_cases hseen : n ∈ seen
      · exact .inl hseen
      · exact .inr (hnew n (mem_fresh.2 ⟨hn, hseen⟩) d hd)
    · rcases ih u hu n hn d hd with hseen | hfound
      · rcases List.mem_append.1 hseen with hfresh | hseen
        · exact .inr (hnew n (List.mem_reverse.1 hfresh) d hd)
        · exact .inl hseen
      · exact .inr (List.mem_cons_of_mem t hfound)

/-! ### Referenced types -/

theorem referencedTypes_eq (r : Registry) (functions : List FunctionDoc) :
    r.referencedTypes functions =
      r.follow (declaredNames (functions.flatMap (·.types))).eraseDups.reverse
        ((declaredNames (functions.flatMap (·.types))).eraseDups.filterMap r.type?) := by
  rw [referencedTypes, discover_eq, fresh_nil_left, List.append_nil]

/-- Functions without types lead to no declaration. -/
theorem referencedTypes_of_untyped (r : Registry) (h : functions.flatMap (·.types) = []) :
    r.referencedTypes functions = [] := by
  rw [referencedTypes, h]
  change r.follow [] [] = []
  rw [follow]

/-- The declarations that the functions mention come first, in the order in which they are mentioned. -/
theorem referencedTypes_eq_append (r : Registry) (functions : List FunctionDoc) :
    ∃ later, r.referencedTypes functions =
        (declaredNames (functions.flatMap (·.types))).eraseDups.filterMap r.type? ++ later ∧
      (later.map (·.name)).Nodup ∧
      ∀ t ∈ later, t.name ∉ declaredNames (functions.flatMap (·.types)) := by
  obtain ⟨later, hfollow, hnodup, hunseen⟩ := r.follow_eq_append
    (declaredNames (functions.flatMap (·.types))).eraseDups.reverse
    ((declaredNames (functions.flatMap (·.types))).eraseDups.filterMap r.type?)
  rw [referencedTypes_eq]
  refine ⟨later, hfollow, hnodup, fun t ht hmentioned => hunseen t ht ?_⟩
  rwa [List.mem_reverse, List.mem_eraseDups]

theorem nodup_referencedTypes (r : Registry) (functions : List FunctionDoc) :
    ((r.referencedTypes functions).map (·.name)).Nodup := by
  obtain ⟨later, heq, hnodup, hunseen⟩ := r.referencedTypes_eq_append functions
  have hfirst := map_name_sublist r (declaredNames (functions.flatMap (·.types))).eraseDups
  rw [heq, List.map_append]
  refine (hfirst.nodup ?_).append hnodup fun n hn hlater => ?_
  · rw [← fresh_nil_left]
    exact nodup_fresh [] _
  · obtain ⟨t, ht, rfl⟩ := List.mem_map.1 hlater
    exact hunseen t ht (List.mem_eraseDups.1 (hfirst.mem hn))

theorem mem_referencedTypes_of_reaches (hn : r.Reaches (functions.flatMap (·.types)) n)
    (ht : r.type? n = some t) : t ∈ r.referencedTypes functions := by
  obtain ⟨later, heq, -⟩ := r.referencedTypes_eq_append functions
  have hmentioned : ∀ n ∈ declaredNames (functions.flatMap (·.types)), ∀ t, r.type? n = some t →
      t ∈ r.referencedTypes functions := by
    intro n hn t ht
    rw [heq]
    exact List.mem_append_left _ (List.mem_filterMap.2 ⟨n, List.mem_eraseDups.2 hn, ht⟩)
  induction hn generalizing t with
  | mentioned hs hn => exact hmentioned _ (mem_declaredNames.2 ⟨_, hs, hn⟩) t ht
  | followed _ hd hs hn ih =>
    have hfound := ih hd
    rw [referencedTypes_eq] at hfound
    rcases mem_follow_of_mem_declaredNames _ hfound _ (mem_declaredNames.2 ⟨_, hs, hn⟩) t ht with
      hseen | hfound
    · rw [List.mem_reverse, List.mem_eraseDups] at hseen
      exact hmentioned _ hseen t ht
    · rwa [referencedTypes_eq]

theorem mem_referencedTypes_iff :
    t ∈ r.referencedTypes functions ↔
      ∃ n, r.Reaches (functions.flatMap (·.types)) n ∧ r.type? n = some t := by
  refine ⟨fun h => ?_, fun ⟨n, hn, ht⟩ => mem_referencedTypes_of_reaches hn ht⟩
  rw [referencedTypes_eq] at h
  refine reaches_of_mem_follow (fun t ht => ?_) t h
  obtain ⟨n, hn, ht⟩ := List.mem_filterMap.1 ht
  obtain ⟨s, hs, hn⟩ := mem_declaredNames.1 (List.mem_eraseDups.1 hn)
  exact ⟨n, .mentioned hs hn, ht⟩

theorem length_referencedTypes_le (r : Registry) (functions : List FunctionDoc) :
    (r.referencedTypes functions).length ≤ r.types.length := by
  have hsub : (r.referencedTypes functions).map (·.name) ⊆ r.types.map (·.name) := by
    intro name hname
    obtain ⟨t, ht, rfl⟩ := List.mem_map.1 hname
    obtain ⟨n, -, ht⟩ := mem_referencedTypes_iff.1 ht
    exact List.mem_map_of_mem (List.mem_of_find?_eq_some ht)
  have hlength := ((r.nodup_referencedTypes functions).subperm hsub).length_le
  rwa [List.length_map, List.length_map] at hlength

/-- The types documented with some functions are, each once, the declarations of exactly the names that
the types of the functions lead to. Those that the functions mention come first, in the order of their
first mention. The search takes a step for each of them, so no more than there are declarations. -/
theorem referencedTypes_reached (r : Registry) (functions : List FunctionDoc) :
    ((r.referencedTypes functions).map (·.name)).Nodup ∧
      (∀ t, t ∈ r.referencedTypes functions ↔
        ∃ n, r.Reaches (functions.flatMap (·.types)) n ∧ r.type? n = some t) ∧
      (∃ later, r.referencedTypes functions =
        (declaredNames (functions.flatMap (·.types))).eraseDups.filterMap r.type? ++ later) ∧
      (r.referencedTypes functions).length ≤ r.types.length := by
  obtain ⟨later, heq, -⟩ := r.referencedTypes_eq_append functions
  exact ⟨r.nodup_referencedTypes functions, fun t => mem_referencedTypes_iff, ⟨later, heq⟩,
    r.length_referencedTypes_le functions⟩

end LuaDocs.Registry
