import LuaDocs.Proofs.Registry.Matching
import LuaDocs.Proofs.Source.Places
import LuaDocs.Proofs.Text.Reading

/-!
# Names of functions

The name of a function is a run of name characters, since the declared name is cut at every dot and colon.
The names of its parameters come from the line that declares it or from tags, each of them a single line,
so they hold no line feed. Matching the names of types leaves all of them alone.
-/

namespace LuaDocs

open Text

/-! ### Declarations -/

namespace Signature

variable {line s rest code : Text} {following lines : List Text} {head : Head} {n : Text} {c : Char}

theorem isMethodChar_of_isNameStart (h : isNameStart c = true) : isMethodChar c = true := by
  simp [isMethodChar, isDottedChar, isNameChar, h]

theorem isMethodChar_of_isDottedChar (h : isDottedChar c = true) : isMethodChar c = true := by
  simp [isMethodChar, h]

theorem of_statement? (h : statement? s = some (n, rest)) :
    (∀ c ∈ n, isMethodChar c = true) ∧ rest.Sublist s := by
  simp only [statement?, Option.bind_eq_bind, Option.bind_eq_some_iff] at h
  obtain ⟨s₁, h₁, s₂, h₂, ⟨m, s₃⟩, h₃, s₄, h₄, h⟩ := h
  cases h
  obtain ⟨hname, -, hrest⟩ := of_name? h₃
  refine ⟨fun c hc => (hname c hc).elim isMethodChar_of_isNameStart id, ?_⟩
  exact (after?_sublist h₄).trans ((skipBlanks_sublist _).trans
    (hrest.trans ((someBlanks?_sublist h₂).trans (after?_sublist h₁))))

theorem of_assignment? (h : assignment? s = some (n, rest)) :
    (∀ c ∈ n, isMethodChar c = true) ∧ rest.Sublist s := by
  simp only [assignment?, Option.bind_eq_bind, Option.bind_eq_some_iff] at h
  obtain ⟨⟨m, s₁⟩, h₁, s₂, h₂, s₃, h₃, s₄, h₄, h⟩ := h
  cases h
  obtain ⟨hname, -, hrest⟩ := of_name? h₁
  refine ⟨fun c hc => (hname c hc).elim isMethodChar_of_isNameStart isMethodChar_of_isDottedChar, ?_⟩
  exact (after?_sublist h₄).trans ((skipBlanks_sublist _).trans ((after?_sublist h₃).trans
    ((skipBlanks_sublist _).trans ((after?_sublist h₂).trans ((skipBlanks_sublist _).trans hrest)))))

theorem afterLocal?_sublist (h : afterLocal? s = some rest) : rest.Sublist s := by
  obtain ⟨s₁, h₁, h₂⟩ := Option.bind_eq_some_iff.1 h
  exact (someBlanks?_sublist h₂).trans (after?_sublist h₁)

/-- Whichever form a declaration has, its name is a dotted name and its parameters follow on the line. -/
theorem of_head? (h : head? line = some (head, rest)) :
    (∀ c ∈ head.name, isMethodChar c = true) ∧ rest.Sublist line := by
  have hline := skipBlanks_sublist line
  -- A statement or an assignment, each of them local or not.
  simp only [head?, Option.or_eq_some_iff, Option.map_eq_some_iff, Option.bind_eq_some_iff] at h
  rcases h with ⟨p, ⟨s, hs, hp⟩, h⟩ | ⟨-, ⟨p, hp, h⟩ | ⟨-, ⟨p, ⟨s, hs, hp⟩, h⟩ | ⟨-, p, hp, h⟩⟩⟩
  · cases h
    exact (of_statement? hp).imp_right fun hrest =>
      hrest.trans ((afterLocal?_sublist hs).trans hline)
  · cases h
    exact (of_statement? hp).imp_right fun hrest => hrest.trans hline
  · cases h
    exact (of_assignment? hp).imp_right fun hrest =>
      hrest.trans ((afterLocal?_sublist hs).trans hline)
  · cases h
    exact (of_assignment? hp).imp_right fun hrest => hrest.trans hline

theorem mem_of_mem_paramNames {inside : Text} (h : n ∈ paramNames inside) : ∀ c ∈ n, c ∈ inside := by
  obtain ⟨part, hpart, rfl⟩ := List.mem_map.1 (List.mem_of_mem_filter h)
  exact fun c hc => mem_of_mem_splitOn hpart ((trim_sublist part).mem hc)

theorem of_parse? {signature : Signature} (h : parse? code = some signature) :
    (∀ c ∈ signature.declaredName, isMethodChar c = true) ∧
      ∀ n ∈ signature.params, ∀ c ∈ n, c ∈ code := by
  rw [parse?] at h
  split at h
  · cases h
  · next head rest hhead =>
    split at h
    · cases h
      obtain ⟨hname, hrest⟩ := of_head? hhead
      refine ⟨hname, fun n hn c hc => ?_⟩
      exact hrest.mem ((List.takeWhile_sublist _).mem (mem_of_mem_paramNames hn c hc))
    · cases h

/-- The last part of a declared name has neither dots nor colons. -/
theorem isNameChar_of_mem_lastPart {declaredName : Text}
    (h : ∀ c ∈ declaredName, isMethodChar c = true) :
    ∀ c ∈ lastPart declaredName, isNameChar c = true := by
  intro c hc
  have hparts : splitWhere (fun c => c == '.' || c == ':') declaredName ≠ [] := by
    rw [splitWhere_eq]
    exact List.splitOnP_ne_nil _ _
  rw [lastPart, List.getLast?_eq_some_getLast hparts, Option.getD_some] at hc
  obtain ⟨hmem, hplain⟩ := mem_splitWhere (List.getLast_mem hparts) hc
  have hchar := h c hmem
  simp only [Bool.or_eq_false_iff] at hplain
  simpa [isMethodChar, isDottedChar, hplain] using hchar

/-! ### Lines of code -/

theorem stripComment_append (h : '-' ∉ s) (t : Text) : stripComment (s ++ t) = s ++ stripComment t := by
  induction s with
  | nil => rfl
  | cons c s ih =>
    rw [List.mem_cons, not_or] at h
    rw [List.cons_append, stripComment, ih h.2]
    · rfl
    · rintro r rfl
      exact absurd rfl h.1

theorem stripComment_sublist (s : Text) : (stripComment s).Sublist s := by
  fun_induction stripComment s with
  | case1 s => exact List.nil_sublist _
  | case2 c s h ih => exact ih.cons_cons c
  | case3 => exact List.nil_sublist _

theorem not_feed_of_closeParams (hlines : ∀ l ∈ lines, '\n' ∉ l) (h : closeParams lines = some code) :
    '\n' ∉ code := by
  induction lines generalizing code with
  | nil => cases h
  | cons line lines ih =>
    obtain ⟨hline, hlines⟩ := List.forall_mem_cons.1 hlines
    have hpart : '\n' ∉ ' ' :: trim (stripComment line) := by
      rw [List.mem_cons, not_or]
      refine ⟨by decide, fun hmem => hline ?_⟩
      exact (stripComment_sublist line).mem ((trim_sublist _).mem hmem)
    rw [closeParams] at h
    split at h
    · cases h
      exact hpart
    · obtain ⟨tail, htail, rfl⟩ := Option.map_eq_some_iff.1 h
      rw [List.mem_append, not_or]
      exact ⟨hpart, ih hlines htail⟩

/-- A declaration joined from several lines is one line. -/
theorem not_feed_of_source (hline : '\n' ∉ line) (hfollowing : ∀ l ∈ following, '\n' ∉ l) :
    '\n' ∉ source line following := by
  rw [source]
  split
  · split
    · exact hline
    · cases hclose : closeParams following with
      | none => exact hline
      | some part =>
        rw [Option.map_some, Option.getD_some, List.mem_append, not_or]
        refine ⟨fun hmem => hline ?_, not_feed_of_closeParams hfollowing hclose⟩
        exact (stripComment_sublist line).mem ((trimEnd_sublist _).mem hmem)
  · exact hline

end Signature

theorem Source.not_feed_of_codeAt? {lines : List Text} {idx : ℕ} {code : Text}
    (hlines : ∀ l ∈ lines, '\n' ∉ l) (h : codeAt? lines idx = some code) : '\n' ∉ code := by
  obtain ⟨line, hline, rfl⟩ := Option.map_eq_some_iff.1 h
  exact Signature.not_feed_of_source (hlines line (List.mem_of_getElem? hline)) fun l hl =>
    hlines l (List.mem_of_mem_drop hl)

namespace Text

theorem dropReturn_sublist (l : Text) : (dropReturn l).Sublist l := by
  rw [dropReturn]
  cases hbefore : before? ['\r'] l with
  | none => exact List.Sublist.refl l
  | some r =>
    obtain ⟨t, ht, rfl⟩ := Option.map_eq_some_iff.1 hbefore
    have hreverse := (after?_sublist ht).reverse
    rwa [List.reverse_reverse] at hreverse

theorem not_feed_of_mem_closeLines {parts : List Text} (h : ∀ part ∈ parts, '\n' ∉ part) :
    ∀ l ∈ closeLines parts, '\n' ∉ l := by
  fun_induction closeLines parts with
  | case1 => exact nofun
  | case2 last => exact nofun
  | case3 last => exact h
  | case4 line rest hrest ih =>
    obtain ⟨hline, hall⟩ := List.forall_mem_cons.1 h
    exact List.forall_mem_cons.2 ⟨fun hmem => hline ((dropReturn_sublist line).mem hmem), ih hall⟩

theorem not_feed_of_mem_lines {s l : Text} (h : l ∈ lines s) : '\n' ∉ l :=
  not_feed_of_mem_closeLines (fun _ hpart => not_mem_of_mem_splitOn hpart) l h

end Text

/-! ### Tags -/

namespace Tag

variable {s n rest body : Text} {variants : Option TypeExpr} {m : Member}

theorem of_bracketKey? (h : bracketKey? s = some (n, rest)) : ∀ c ∈ n, c ∈ s := by
  rw [bracketKey?] at h
  split at h
  · cases h
  · next r hafter =>
    have hr : r.Sublist s := after?_sublist hafter
    have hopen : '[' ∈ s := by
      rw [after?, List.isPrefixOf?_eq_some_iff_append_eq] at hafter
      rw [← hafter]
      exact List.mem_cons_self
    split at h
    · cases h
    · next c t hclose =>
      cases h
      have hc : c ∈ r := (List.dropWhile_sublist _).mem (hclose ▸ List.mem_cons_self)
      intro d hd
      rw [List.cons_append, List.mem_cons, List.mem_append, List.mem_singleton] at hd
      rcases hd with rfl | hd | rfl
      · exact hopen
      · exact hr.mem ((List.takeWhile_sublist _).mem hd)
      · exact hr.mem hc

theorem not_feed_of_entryName? (hs : '\n' ∉ s) (h : entryName? s = some (n, rest)) : '\n' ∉ n := by
  rw [entryName?] at h
  split at h
  · cases h
    decide
  · rw [Option.or_eq_some_iff] at h
    rcases h with h | ⟨-, h⟩
    · exact fun hmem => hs (of_bracketKey? h _ hmem)
    · exact fun hmem => hs ((of_name? h).2.1.mem hmem)

theorem not_feed_of_member (hbody : '\n' ∉ body) (h : member body variants = .ok m) :
    '\n' ∉ m.name := by
  have htrim : '\n' ∉ trim body := fun hmem => hbody ((trim_sublist body).mem hmem)
  rw [member] at h
  split at h
  · cases h
  · next name s hentry =>
    have hname := not_feed_of_entryName? htrim hentry
    dsimp only at h
    split at h
    · cases h
    · split at h
      · cases h
      · cases h
        exact hname

end Tag

/-! ### Blocks -/

namespace Block

def Flat (block : Block) : Prop :=
  ∀ l ∈ block, ∀ directive body, l.content = .tag directive body → '\n' ∉ body

theorem sublist_of_tag? {text body : Text} {directive : Directive}
    (h : LineContent.tag? text = some (.tag directive body)) : body.Sublist text := by
  rw [LineContent.tag?] at h
  split at h
  · cases h
  · next s hafter =>
    split at h
    · cases h
    · cases h
      have hs := (after?_sublist hafter).trans (skipBlanks_sublist text)
      have hbody := (trim_sublist (s.dropWhile isNameStart)).trans (List.dropWhile_sublist _)
      exact hbody.trans hs

theorem not_feed_of_classify {text body : Text} {directive : Directive}
    (h : LineContent.classify text = .tag directive body) : '\n' ∉ body := by
  rw [LineContent.classify] at h
  split at h
  · cases h
  · next hfeed =>
    have htext : '\n' ∉ text := by simpa using hfeed
    cases htag : LineContent.tag? text with
    | none =>
      rw [htag, Option.none_or] at h
      cases hvariant : LineContent.variant? text with
      | none =>
        rw [hvariant] at h
        cases h
      | some content =>
        obtain ⟨s, -, rfl⟩ := Option.map_eq_some_iff.1 hvariant
        rw [hvariant] at h
        cases h
    | some content =>
      rw [htag, Option.some_or, Option.getD_some] at h
      subst h
      exact fun hmem => htext ((sublist_of_tag? htag).mem hmem)

theorem flat_above (lines : List Text) (decl : ℕ) : (above lines decl).Flat := by
  intro l hl directive body hcontent
  rw [above, ofRun, List.mem_filterMap] at hl
  obtain ⟨p, -, hp⟩ := hl
  obtain ⟨text, -, rfl⟩ := Option.map_eq_some_iff.1 hp
  exact not_feed_of_classify hcontent

end Block

/-! ### Functions -/

namespace FunctionDraft

/-- The names of the parameters read so far hold no line feed. -/
def Named (d : FunctionDraft) : Prop :=
  ∀ n ∈ d.params.map (·.name), '\n' ∉ n

theorem map_name_modify (params : List Member) (i : ℕ) (text : Text) :
    (params.modify i (Member.appendProse text)).map (·.name) = params.map (·.name) := by
  induction params generalizing i with
  | nil => cases i <;> rfl
  | cons m params ih =>
    cases i with
    | zero => rfl
    | succ i => rw [List.modify_succ_cons, List.map_cons, ih, List.map_cons]

theorem named_addProse {d : FunctionDraft} (h : d.Named) (text : Text) : (d.addProse text).Named := by
  rw [addProse]
  cases d.target with
  | member i =>
    rw [Named, map_name_modify]
    exact h
  | _ => exact h

theorem named_addTag {d : FunctionDraft} (h : d.Named) (here : Location) (directive : Directive)
    {body : Text} (hbody : '\n' ∉ body) (variants : Option TypeExpr) :
    (d.addTag here directive body variants).Named := by
  -- Only a parameter's tag adds a name.
  cases directive with
  | param =>
    rw [addTag]
    cases hm : Tag.member body variants with
    | error fault => exact h
    | ok m =>
      rw [Named, List.map_append]
      exact List.forall_mem_append.2
        ⟨h, List.forall_mem_singleton.2 (Tag.not_feed_of_member hbody hm)⟩
  | returns =>
    rw [addTag]
    cases Tag.returnValues body variants <;> exact h
  | generic =>
    rw [addTag]
    cases Tag.genericNames body <;> exact h
  | _ => exact h

theorem named_read (file : Text) {d : FunctionDraft} (h : d.Named) {block : Block}
    (hblock : block.Flat) : (d.read file block).Named := by
  induction block generalizing d with
  | nil => exact h
  | cons l block ih =>
    obtain ⟨hl, hblock⟩ := List.forall_mem_cons.1 hblock
    rw [read]
    cases hcontent : l.content with
    | prose text => exact ih (named_addProse h text) hblock
    | variant text => exact ih h hblock
    | tag directive body => exact ih (named_addTag h _ directive (hl directive body hcontent) _) hblock

end FunctionDraft

namespace FunctionDoc

/-- The function has a plain name, and the names of its parameters hold no line feed. -/
structure Named (f : FunctionDoc) : Prop where
  name : ∀ c ∈ f.name, isNameChar c = true
  params : ∀ m ∈ f.params, '\n' ∉ m.name

theorem named_ofBlock {block : Block} {signature : Signature} (hblock : block.Flat)
    (hname : ∀ c ∈ signature.declaredName, Signature.isMethodChar c = true)
    (hparams : ∀ n ∈ signature.params, '\n' ∉ n) (location : Location) :
    (ofBlock block signature location).1.Named := by
  refine ⟨Signature.isNameChar_of_mem_lastPart hname, fun m hm => ?_⟩
  rw [ofBlock] at hm
  dsimp only at hm
  split at hm
  · obtain ⟨n, hn, rfl⟩ := List.mem_map.1 hm
    exact hparams n hn
  · have hdraft : FunctionDraft.Named .empty := nofun
    exact FunctionDraft.named_read location.file hdraft hblock _ (List.mem_map_of_mem hm)

end FunctionDoc

theorem ParsedFile.named_of_mem_ofContent {file content : Text} {f : FunctionDoc}
    (hf : f ∈ (ofContent file content).docs.functions) : f.Named := by
  obtain ⟨decl, signature, hsignature, rfl⟩ := exists_of_mem_ofContent hf
  obtain ⟨code, hcode, hparse⟩ := Option.bind_eq_some_iff.1 hsignature
  have hfeed : '\n' ∉ code := Source.not_feed_of_codeAt? (fun _ => not_feed_of_mem_lines) hcode
  obtain ⟨hname, hparams⟩ := Signature.of_parse? hparse
  exact FunctionDoc.named_ofBlock (Block.flat_above _ _) hname
    (fun n hn hmem => hfeed (hparams n hn _ hmem)) _

namespace Registry

theorem mem_functions_of_mem_exposedFunctions {r : Registry} {path : Text} {f : FunctionDoc}
    (hf : f ∈ r.exposedFunctions path) : f ∈ r.functions := by
  rw [exposedFunctions] at hf
  split at hf
  · next docs hdocs =>
    obtain ⟨front, back, hfiles, -⟩ := List.lookup_eq_some_iff.1 hdocs
    refine List.mem_flatMap.2 ⟨(path, docs), ?_, List.mem_of_mem_filter hf⟩
    rw [hfiles]
    exact List.mem_append_right front List.mem_cons_self
  · exact absurd hf List.not_mem_nil

theorem named_of_mem_functions {sources : List (Text × Text)} {f : FunctionDoc}
    (hf : f ∈ (ofSources sources).functions) : f.Named := by
  obtain ⟨source, -, g, hg, rfl⟩ := exists_matched_of_mem_functions hf
  have hnamed : g.Named := ParsedFile.named_of_mem_ofContent hg
  refine ⟨hnamed.name, fun m hm => ?_⟩
  obtain ⟨m', hm', rfl⟩ := List.mem_map.1 hm
  exact hnamed.params m' hm'

end Registry

end LuaDocs
