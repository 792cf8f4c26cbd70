import LuaDocs.Proofs.Registry.Matching
import LuaDocs.Proofs.TypeExpr.OneLine
import Mathlib.Data.List.Forall2

/-!
# Nodes and their names

The walk over a type comes to its nodes, each before its parts. A node says how many parts it has, so the
nodes in the order of the walk determine the type (`eq_of_nodes_eq`). The traversal that replaces names asks
for one unmatched name after the other, in the same order. Where every answer is a leaf with the name that
was asked for, the walk over the outcome comes to the same nodes, but for the labels of these leaves; and
since the two labels of a name look alike, nothing of it shows in the written form.
-/

namespace LuaDocs

/-! ### Nodes -/

/-- A node of a type without its parts: its kind, the texts it holds itself, and the number of its parts. -/
inductive TypeNode where
  | builtin (type : Builtin)
  | named (name : Text)
  | declared (name : Text)
  | literal (text : Text)
  | array
  | optional
  | union (alternatives : ℕ)
  | container (name : Text) (args : ℕ)
  | function (params : List Text) (returns : ℕ)
  | table (keys : List Text)
  deriving DecidableEq

namespace TypeNode

def arity : TypeNode → ℕ
  | array | optional => 1
  | union n => n
  | container _ n => n
  | function params n => params.length + n
  | table keys => keys.length
  | _ => 0

def openName? : TypeNode → Option Text
  | named n => some n
  | _ => none

def matched : TypeNode → TypeNode
  | named n => declared n
  | node => node

end TypeNode

namespace TypeExpr

variable {t u : TypeExpr} {r r' : List TypeNode}

def node : TypeExpr → TypeNode
  | builtin b => .builtin b
  | named n => .named n
  | declared n => .declared n
  | literal s => .literal s
  | array _ => .array
  | optional _ => .optional
  | union ts => .union ts.length
  | container n ts => .container n ts.length
  | function ps rs => .function (ps.map Prod.fst) rs.length
  | table fs => .table (fs.map Prod.fst)

def children : TypeExpr → List TypeExpr
  | array t | optional t => [t]
  | union ts | container _ ts => ts
  | function ps rs => ps.map Prod.snd ++ rs
  | table fs => fs.map Prod.snd
  | _ => []

/-- The nodes that the walk over a type comes to, in its order. -/
def nodes (t : TypeExpr) : List TypeNode :=
  t.subterms.map node

theorem nodes_eq (t : TypeExpr) : t.nodes = t.node :: t.children.flatMap nodes := by
  cases t with
  | union ts | container n ts =>
    rw [nodes, subterms, subtermsAll_eq_flatMap, List.map_cons, List.map_flatMap]
    rfl
  | function ps rs =>
    rw [nodes, subterms, subtermsAll_eq_flatMap, subtermsFields_eq_flatMap, List.map_cons, List.map_append,
      List.map_flatMap, List.map_flatMap, children, List.flatMap_append, List.flatMap_map]
    rfl
  | table fs =>
    rw [nodes, subterms, subtermsFields_eq_flatMap, List.map_cons, List.map_flatMap, children,
      List.flatMap_map]
    rfl
  | array t | optional t =>
    rw [children, List.flatMap_singleton]
    rfl
  | _ => rfl

theorem openName?_node (t : TypeExpr) : t.node.openName? = t.openName? := by
  cases t <;> rfl

theorem names_eq_filterMap (t : TypeExpr) : t.names = t.nodes.filterMap TypeNode.openName? := by
  rw [names, nodes, List.filterMap_map]
  exact List.filterMap_congr fun u _ => (openName?_node u).symm

theorem names_eq_flatMap (h : t.openName? = none) : t.names = t.children.flatMap names := by
  have hnode : t.node.openName? = none := (openName?_node t).trans h
  rw [names_eq_filterMap, nodes_eq, List.filterMap_cons_none hnode, List.filterMap_flatMap]
  exact List.flatMap_congr fun u _ => (names_eq_filterMap u).symm

theorem length_children (t : TypeExpr) : t.children.length = t.node.arity := by
  cases t <;> simp [children, node, TypeNode.arity]

/-- A type is its root with the types right below. -/
theorem eq_of_node_eq (hnode : t.node = u.node) (hchildren : t.children = u.children) : t = u := by
  cases t with
  | function ps rs =>
    cases u with
    | function qs rs' =>
      injection hnode with hkeys hlength
      have hps : (ps.map Prod.snd).length = (qs.map Prod.snd).length := by
        rw [List.length_map, List.length_map, ← List.length_map Prod.fst, hkeys, List.length_map]
      obtain ⟨htypes, rfl⟩ := List.append_inj hchildren hps
      rw [List.zip_of_prod hkeys htypes, ← List.zip_of_prod rfl rfl]
    | _ => cases hnode
  | table fs =>
    cases u with
    | table gs =>
      injection hnode with hkeys
      have htypes : fs.map Prod.snd = gs.map Prod.snd := hchildren
      rw [List.zip_of_prod hkeys htypes, ← List.zip_of_prod rfl rfl]
    | _ => cases hnode
  | _ => cases u <;> simp_all [node, children]

@[elab_as_elim]
theorem inductionOnChildren {P : TypeExpr → Prop} (h : ∀ t, (∀ c ∈ t.children, P c) → P t)
    (t : TypeExpr) : P t := by
  induction t using inductionOnParts with
  | builtin | named | declared | literal => exact h _ nofun
  | array t ih | optional t ih => exact h _ (List.forall_mem_singleton.2 ih)
  | union ts ih | container n ts ih => exact h _ ih
  | function ps rs ihps ihrs =>
    exact h _ (List.forall_mem_append.2 ⟨List.forall_mem_map.2 ihps, ihrs⟩)
  | table fs ih => exact h _ (List.forall_mem_map.2 ih)

/-- Types in a row are told apart by their nodes, once it is known how many they are. -/
theorem eq_of_flatMap_nodes {ts us : List TypeExpr}
    (h : ∀ t ∈ ts, ∀ {u r r'}, t.nodes ++ r = u.nodes ++ r' → t = u ∧ r = r')
    (hlength : ts.length = us.length) (hnodes : ts.flatMap nodes ++ r = us.flatMap nodes ++ r') :
    ts = us ∧ r = r' := by
  induction ts generalizing us with
  | nil =>
    obtain rfl := List.length_eq_zero_iff.1 hlength.symm
    exact ⟨rfl, hnodes⟩
  | cons t ts ih =>
    cases us with
    | nil => cases hlength
    | cons u us =>
      obtain ⟨ht, hts⟩ := List.forall_mem_cons.1 h
      rw [List.flatMap_cons, List.flatMap_cons, List.append_assoc, List.append_assoc] at hnodes
      obtain ⟨rfl, hrest⟩ := ht hnodes
      obtain ⟨rfl, hr⟩ := ih hts (Nat.succ.inj hlength) hrest
      exact ⟨rfl, hr⟩

theorem eq_of_nodes_append_eq (h : t.nodes ++ r = u.nodes ++ r') : t = u ∧ r = r' := by
  induction t using inductionOnChildren generalizing u r r' with
  | h t ih =>
    rw [nodes_eq, nodes_eq u, List.cons_append, List.cons_append] at h
    obtain ⟨hnode, h⟩ := List.cons.inj h
    -- Equal roots have equally many children, so the nodes of the children are told from what follows.
    have hlength : t.children.length = u.children.length := by
      rw [length_children, length_children, hnode]
    obtain ⟨hchildren, hr⟩ := eq_of_flatMap_nodes ih hlength h
    exact ⟨eq_of_node_eq hnode hchildren, hr⟩

/-- The walk over a type tells it from all others. -/
theorem eq_of_nodes_eq (h : t.nodes = u.nodes) : t = u :=
  (eq_of_nodes_append_eq (congrArg (· ++ []) h)).1

/-! ### Labels of leaves -/

/-- Nodes with answers for the unmatched names among them, one after the other, in place of these. -/
def relabelled : List TypeNode → List TypeExpr → List TypeNode
  | .named _ :: nodes, answer :: answers => answer.node :: relabelled nodes answers
  | node :: nodes, answers => node :: relabelled nodes answers
  | [], _ => []

/-- A leaf with a given name, matched or not. -/
def Labels (n : Text) (t : TypeExpr) : Prop :=
  t = named n ∨ t = declared n

theorem relabelled_cons {node : TypeNode} (h : node.openName? = none) (nodes : List TypeNode)
    (answers : List TypeExpr) : relabelled (node :: nodes) answers = node :: relabelled nodes answers := by
  cases node with
  | named n => cases h
  | _ => rw [relabelled.eq_2]; exact nofun

theorem relabelled_append {ns : List TypeNode} {answers : List TypeExpr}
    (h : answers.length = (ns.filterMap TypeNode.openName?).length) (ms : List TypeNode)
    (answers' : List TypeExpr) :
    relabelled (ns ++ ms) (answers ++ answers') = relabelled ns answers ++ relabelled ms answers' := by
  induction ns generalizing answers with
  | nil =>
    obtain rfl := List.length_eq_zero_iff.1 h
    rfl
  | cons node ns ih =>
    cases hnode : node.openName? with
    | none =>
      rw [List.filterMap_cons_none hnode] at h
      rw [List.cons_append, relabelled_cons hnode, relabelled_cons hnode, ih h, List.cons_append]
    | some n =>
      rw [List.filterMap_cons_some hnode] at h
      cases node with
      | named n =>
        cases answers with
        | nil => cases h
        | cons answer answers => exact congrArg (answer.node :: ·) (ih (Nat.succ.inj h))
      | _ => cases hnode

/-- Where all names are matched, it does not matter which ones were before. -/
theorem map_matched_relabelled {ns : List TypeNode} {answers : List TypeExpr}
    (h : List.Forall₂ Labels (ns.filterMap TypeNode.openName?) answers) :
    (relabelled ns answers).map TypeNode.matched = ns.map TypeNode.matched := by
  induction ns generalizing answers with
  | nil => rfl
  | cons node ns ih =>
    cases hnode : node.openName? with
    | none =>
      rw [List.filterMap_cons_none hnode] at h
      rw [relabelled_cons hnode, List.map_cons, ih h, List.map_cons]
    | some n =>
      rw [List.filterMap_cons_some hnode] at h
      cases node with
      | named m =>
        obtain rfl := Option.some.inj hnode
        cases h with
        | cons hlabel hrest =>
          rw [relabelled, List.map_cons, ih hrest, List.map_cons]
          obtain rfl | rfl := hlabel <;> rfl
      | _ => cases hnode

theorem node_matched (t : TypeExpr) : (t.matched fun _ => true).node = t.node.matched := by
  cases t <;> simp [matched, node, TypeNode.matched, matchedAll_eq_map, matchedFields_eq_map]

theorem nodes_matched (t : TypeExpr) :
    (t.matched fun _ => true).nodes = t.nodes.map TypeNode.matched := by
  rw [nodes, nodes, subterms_matched, List.map_map, List.map_map]
  exact List.map_congr_left fun u _ => node_matched u

theorem matched_eq_of_relabelled {answers : List TypeExpr} (h : List.Forall₂ Labels t.names answers)
    (hu : u.nodes = relabelled t.nodes answers) :
    (u.matched fun _ => true) = t.matched fun _ => true := by
  rw [names_eq_filterMap] at h
  refine eq_of_nodes_eq ?_
  rw [nodes_matched, nodes_matched, hu, map_matched_relabelled h]

theorem anyOptional_eq_any (ts : List TypeExpr) : anyOptional ts = ts.any isOptional := by
  induction ts with
  | nil => rfl
  | cons t ts ih => rw [anyOptional, ih, List.any_cons]

theorem isOptional_matched (known : Text → Bool) (t : TypeExpr) :
    (t.matched known).isOptional = t.isOptional := by
  induction t using inductionOnParts with
  | named n =>
    rw [matched]
    split <;> rfl
  | union ts ih =>
    rw [matched, matchedAll_eq_map, isOptional, isOptional, anyOptional_eq_any, anyOptional_eq_any,
      List.any_map, Bool.eq_iff_iff, List.any_eq_true, List.any_eq_true]
    refine exists_congr fun t => and_congr_right fun ht => ?_
    rw [Function.comp_apply, ih t ht]
  | _ => rfl

/-! ### Runs of the traversal -/

section

variable {σ α β : Type}

theorem run_bind_eq {step : StateM σ α} {next : α → StateM σ β} {s s₁ s₂ : σ} {a : α} {b : β}
    (h : step.run s = (a, s₁)) (hnext : (next a).run s₁ = (b, s₂)) :
    (step >>= next).run s = (b, s₂) := by
  rw [StateT.run_bind, h]
  exact hnext

variable {g : α → StateM σ β}

theorem run_mapM_cons {a : α} {as : List α} {b : β} {bs : List β} {s s₁ s₂ : σ}
    (ha : (g a).run s = (b, s₁)) (has : (as.mapM g).run s₁ = (bs, s₂)) :
    ((a :: as).mapM g).run s = (b :: bs, s₂) := by
  rw [List.mapM_cons]
  exact run_bind_eq ha (run_bind_eq has rfl)

theorem run_mapM_append {as as' : List α} {bs bs' : List β} {s s₁ s₂ : σ}
    (has : (as.mapM g).run s = (bs, s₁)) (has' : (as'.mapM g).run s₁ = (bs', s₂)) :
    ((as ++ as').mapM g).run s = (bs ++ bs', s₂) := by
  rw [List.mapM_append]
  exact run_bind_eq has (run_bind_eq has' rfl)

theorem run_mapM_cons_iff {a : α} {as : List α} {bs : List β} {s s₂ : σ} :
    ((a :: as).mapM g).run s = (bs, s₂) ↔
      ∃ b bs' s₁, (g a).run s = (b, s₁) ∧ (as.mapM g).run s₁ = (bs', s₂) ∧ bs = b :: bs' := by
  constructor
  · intro h
    obtain ⟨b, s₁, ha⟩ : ∃ b s₁, (g a).run s = (b, s₁) := ⟨_, _, rfl⟩
    obtain ⟨bs', s', has⟩ : ∃ bs' s', (as.mapM g).run s₁ = (bs', s') := ⟨_, _, rfl⟩
    rw [run_mapM_cons ha has] at h
    cases h
    exact ⟨b, bs', s₁, ha, has, rfl⟩
  · rintro ⟨b, bs', s₁, ha, has, rfl⟩
    exact run_mapM_cons ha has

theorem length_run_mapM {as : List α} {bs : List β} {s s' : σ} (h : (as.mapM g).run s = (bs, s')) :
    bs.length = as.length := by
  induction as generalizing s bs with
  | nil =>
    cases h
    rfl
  | cons a as ih =>
    obtain ⟨b, bs, s₁, -, has, rfl⟩ := run_mapM_cons_iff.1 h
    exact congrArg (· + 1) (ih has)

end

section

variable {σ : Type} {f : Text → StateM σ TypeExpr}

theorem run_mapNamesFieldsM (fs : List (Text × TypeExpr)) (s : σ) : ∃ gs s',
    (mapNamesFieldsM f fs).run s = (gs, s') ∧ gs.map Prod.fst = fs.map Prod.fst ∧
      ((fs.map Prod.snd).mapM (mapNamesM f)).run s = (gs.map Prod.snd, s') := by
  induction fs generalizing s with
  | nil => exact ⟨[], s, rfl, rfl, rfl⟩
  | cons p fs ih =>
    obtain ⟨k, t⟩ := p
    obtain ⟨gs, s', hgs, hkeys, htypes⟩ := ih ((mapNamesM f t).run s).2
    have hcons : (mapNamesFieldsM f ((k, t) :: fs)).run s =
        ((k, ((mapNamesM f t).run s).1) :: gs, s') := run_bind_eq rfl (run_bind_eq hgs rfl)
    exact ⟨_, s', hcons, congrArg (k :: ·) hkeys, run_mapM_cons rfl htypes⟩

/-- A type that is no unmatched name keeps its root, and its children are gone through in order. -/
theorem run_mapNamesM_children (h : t.openName? = none) (s : σ) : ∃ u s',
    (t.mapNamesM f).run s = (u, s') ∧ u.node = t.node ∧
      (t.children.mapM (mapNamesM f)).run s = (u.children, s') := by
  cases t with
  | named n => cases h
  | builtin | declared | literal => exact ⟨_, s, rfl, rfl, rfl⟩
  | array t => exact ⟨array _, _, run_bind_eq rfl rfl, rfl, run_mapM_cons rfl rfl⟩
  | optional t => exact ⟨optional _, _, run_bind_eq rfl rfl, rfl, run_mapM_cons rfl rfl⟩
  | union ts =>
    rw [mapNamesM, mapNamesAllM_eq_mapM]
    exact ⟨union _, _, run_bind_eq rfl rfl, congrArg TypeNode.union (length_run_mapM rfl), rfl⟩
  | container n ts =>
    rw [mapNamesM, mapNamesAllM_eq_mapM]
    exact ⟨container n _, _, run_bind_eq rfl rfl, congrArg (TypeNode.container n) (length_run_mapM rfl), rfl⟩
  | function ps rs =>
    obtain ⟨qs, s₁, hqs, hkeys, htypes⟩ := run_mapNamesFieldsM (f := f) ps s
    rw [mapNamesM, mapNamesAllM_eq_mapM]
    exact ⟨function qs _, _, run_bind_eq hqs (run_bind_eq rfl rfl),
      congrArg₂ TypeNode.function hkeys (length_run_mapM rfl), run_mapM_append htypes rfl⟩
  | table fs =>
    obtain ⟨gs, s', hgs, hkeys, htypes⟩ := run_mapNamesFieldsM (f := f) fs s
    exact ⟨table gs, s', run_bind_eq hgs rfl, congrArg TypeNode.table hkeys, htypes⟩

/-- Replacing names asks for the names of a type in order, and the answers label its nodes. -/
def AsksInOrder (f : Text → StateM σ TypeExpr) (t : TypeExpr) : Prop :=
  ∀ s, ∃ u answers s', (t.mapNamesM f).run s = (u, s') ∧ (t.names.mapM f).run s = (answers, s') ∧
    u.nodes = relabelled t.nodes answers

theorem run_mapM_mapNamesM {ts : List TypeExpr} (h : ∀ t ∈ ts, AsksInOrder f t) (s : σ) :
    ∃ us answers s', (ts.mapM (mapNamesM f)).run s = (us, s') ∧
      ((ts.flatMap names).mapM f).run s = (answers, s') ∧
      us.flatMap nodes = relabelled (ts.flatMap nodes) answers := by
  induction ts generalizing s with
  | nil => exact ⟨[], [], s, rfl, rfl, rfl⟩
  | cons t ts ih =>
    obtain ⟨ht, hts⟩ := List.forall_mem_cons.1 h
    obtain ⟨u, answers, s₁, hu, hanswers, hnodes⟩ := ht s
    obtain ⟨us, answers', s₂, hus, hanswers', hnodes'⟩ := ih hts s₁
    refine ⟨u :: us, answers ++ answers', s₂, run_mapM_cons hu hus, run_mapM_append hanswers hanswers', ?_⟩
    have hlength : answers.length = (t.nodes.filterMap TypeNode.openName?).length := by
      rw [← names_eq_filterMap, length_run_mapM hanswers]
    rw [List.flatMap_cons, List.flatMap_cons, relabelled_append hlength, hnodes, hnodes']

theorem asksInOrder (hf : ∀ n s, Labels n ((f n).run s).1) (t : TypeExpr) : AsksInOrder f t := by
  induction t using inductionOnChildren with
  | h t ih =>
    intro s
    cases hname : t.openName? with
    | some n =>
      obtain rfl : t = named n := by
        cases t with
        | named m => rw [Option.some.inj hname]
        | _ => cases hname
      obtain ⟨a, s', ha⟩ : ∃ a s', (f n).run s = (a, s') := ⟨_, _, rfl⟩
      have hlabel : Labels n a := by
        have hfirst := hf n s
        rwa [ha] at hfirst
      refine ⟨a, [a], s', ha, run_mapM_cons ha rfl, ?_⟩
      obtain rfl | rfl := hlabel <;> rfl
    | none =>
      -- The root is asked nothing, so the names of the children are all the names there are.
      obtain ⟨u, s', hu, hnode, hchildren⟩ := run_mapNamesM_children (f := f) hname s
      obtain ⟨us, answers, s₁, hus, hanswers, hnodes⟩ := run_mapM_mapNamesM ih s
      obtain ⟨rfl, rfl⟩ := Prod.mk.inj (hchildren.symm.trans hus)
      have hopen : t.node.openName? = none := (openName?_node t).trans hname
      refine ⟨u, answers, s', hu, ?_, ?_⟩
      · rwa [names_eq_flatMap hname]
      · rw [nodes_eq, nodes_eq t, relabelled_cons hopen, hnode, hnodes]

/-- Replacing names with a record of those that were asked for. -/
def recorded (f : Text → StateM σ TypeExpr) (n : Text) : StateM (σ × List Text) TypeExpr := do
  let (s, asked) ← get
  let (answer, s) := (f n).run s
  set (s, asked ++ [n])
  return answer

theorem run_recorded {n : Text} {answer : TypeExpr} {s s' : σ} (h : (f n).run s = (answer, s'))
    (asked : List Text) : (recorded f n).run (s, asked) = (answer, s', asked ++ [n]) := by
  have hrun : (recorded f n).run (s, asked) = (((f n).run s).1, ((f n).run s).2, asked ++ [n]) := rfl
  rw [hrun, h]

/-- A record makes no difference to the answers. -/
theorem run_mapM_recorded {ns : List Text} {answers : List TypeExpr} {s s' : σ}
    (h : (ns.mapM f).run s = (answers, s')) (asked : List Text) :
    (ns.mapM (recorded f)).run (s, asked) = (answers, s', asked ++ ns) := by
  induction ns generalizing s answers asked with
  | nil =>
    cases h
    rw [List.append_nil]
    rfl
  | cons n ns ih =>
    obtain ⟨answer, answers, s₁, hn, hns, rfl⟩ := run_mapM_cons_iff.1 h
    rw [run_mapM_cons (run_recorded hn asked) (ih hns _), List.append_assoc, List.singleton_append]

theorem forall₂_labels (hf : ∀ n s, Labels n ((f n).run s).1) {ns : List Text} {answers : List TypeExpr}
    {s s' : σ} (h : (ns.mapM f).run s = (answers, s')) : List.Forall₂ Labels ns answers := by
  induction ns generalizing s answers with
  | nil =>
    cases h
    exact .nil
  | cons n ns ih =>
    obtain ⟨answer, answers, s₁, hn, hns, rfl⟩ := run_mapM_cons_iff.1 h
    have hlabel := hf n s
    rw [hn] at hlabel
    exact .cons hlabel (ih hns)

/-- Where every answer for a name is a leaf with that name, replacing names asks for the unmatched names of a
type in the order of the walk and for nothing else. The walk over the outcome then comes to the same nodes,
with these names labelled as was answered; the written form stays, and so does whether the value may be left
out. -/
theorem mapNamesM_relabels (hf : ∀ n s, ((f n).run s).1 = named n ∨ ((f n).run s).1 = declared n)
    (t : TypeExpr) (s : σ) : ∃ u answers s',
      (t.mapNamesM f).run s = (u, s') ∧
      (t.mapNamesM (recorded f)).run (s, []) = (u, s', t.names) ∧
      (t.names.mapM f).run s = (answers, s') ∧
      u.nodes = relabelled t.nodes answers ∧
      u.print = t.print ∧
      u.isOptional = t.isOptional := by
  obtain ⟨u, answers, s', hu, hanswers, hnodes⟩ := asksInOrder hf t s
  obtain ⟨v, answers', _, hv, hrecorded, hnodes'⟩ :=
    asksInOrder (f := recorded f) (fun n s => hf n s.1) t (s, [])
  rw [run_mapM_recorded hanswers []] at hrecorded
  cases hrecorded
  -- Both runs get the same answers, so the walk sees the same nodes in both outcomes.
  obtain rfl : v = u := eq_of_nodes_eq (hnodes'.trans hnodes.symm)
  have hmatched := matched_eq_of_relabelled (forall₂_labels hf hanswers) hnodes
  refine ⟨v, answers, s', hu, hv, hanswers, hnodes, ?_, ?_⟩
  · rw [← print_matched fun _ => true, hmatched, print_matched]
  · rw [← isOptional_matched fun _ => true, hmatched, isOptional_matched]

theorem labels_resolveName (index : TypeIndex) (generics : List Text) (here : Location) (n : Text)
    (reported : List Diagnostic) :
    Labels n ((Registry.resolveName index generics here n).run reported).1 := by
  rw [Registry.yields_resolveName (fun _ => rfl) generics here n reported, matched]
  split
  · exact .inr rfl
  · exact .inl rfl

theorem mapNamesM_relabels_resolveName :
    let f := Registry.resolveName [("A".toList, ⟨"a.lua".toList, 1⟩)] ["T".toList] ⟨"b.lua".toList, 7⟩
    let t := function [("x".toList, named "A".toList), ("y".toList, array (named "B".toList))]
      [union [named "T".toList, container "Map".toList [named "B".toList, named "A".toList],
        builtin .nil]]
    (∀ n s, ((f n).run s).1 = named n ∨ ((f n).run s).1 = declared n) ∧ ∃ u answers s',
      (t.mapNamesM f).run [] = (u, s') ∧
      (t.mapNamesM (recorded f)).run ([], []) = (u, s', t.names) ∧
      (t.names.mapM f).run [] = (answers, s') ∧
      u.nodes = relabelled t.nodes answers ∧
      u.print = t.print ∧
      u.isOptional = t.isOptional :=
  ⟨labels_resolveName _ _ _, mapNamesM_relabels (labels_resolveName _ _ _) _ _⟩

end

end TypeExpr

end LuaDocs
