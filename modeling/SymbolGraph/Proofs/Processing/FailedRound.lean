import SymbolGraph.Oracle.Disturbed
import SymbolGraph.Proofs.Processing.DocLines

/-!
# Rounds that fail

The documentation lines are added to the results one by one, so a round that fails leaves behind those of
the declarations that it entered. A round goes through the declarations in the files until it is through, or
until it breaks off: at a declaration that cannot be wrapped, at a comment that cannot be read, or at
declarations that are nested too deep. This holds of every front end, also of one that answers differently
from time to time.
-/

namespace SymbolGraph

variable {σ α : Type} {session : Session σ} {s t : SessionState σ} {key : SymbolKey}
  {keys rest : List SymbolKey} {d : Declaration} {own lines after : List String} {depth : Nat} {e : GraphError}

namespace DocLine

/-! ## One declaration -/

/-- A declaration is wrapped and entered. It adds its line, or nothing if it is a type parameter. -/
inductive Opens (session : Session σ) (s : SessionState σ) (key : SymbolKey) :
    Declaration → List String → SessionState σ → Prop
  | typeParameter {w : TypeParameterNode} {t : SessionState σ} :
    Query.declaration key session s = .ok (.typeParameter w) t →
    Opens session s key (.typeParameter w) [] t
  | line {d : Declaration} {doc : Option String} {t u : SessionState σ} :
    Query.declaration key session s = .ok d t → d.node.kind ≠ .typeParameter →
    d.docString session t = .ok doc u → Opens session s key d [render d.simpleName doc] u

/-- A declaration that cannot be wrapped, or whose comment cannot be read. -/
inductive Refused (session : Session σ) (s : SessionState σ) (key : SymbolKey) :
    GraphError → SessionState σ → Prop
  | declaration {e : GraphError} {t : SessionState σ} :
    Query.declaration key session s = .error e t → Refused session s key e t
  | comment {d : Declaration} {e : GraphError} {t u : SessionState σ} :
    Query.declaration key session s = .ok d t → d.docString session t = .error e u →
    Refused session s key e u

theorem opens_or_refused (session : Session σ) (s : SessionState σ) (key : SymbolKey) :
    (∃ d own t, Opens session s key d own t) ∨ ∃ e t, Refused session s key e t := by
  cases hd : Query.declaration key session s with
  | error e t => exact .inr ⟨e, t, .declaration hd⟩
  | ok d t =>
    by_cases hkind : d.node.kind = .typeParameter
    · cases d with
      | typeParameter w => exact .inl ⟨_, _, t, .typeParameter hd⟩
      | classLike w | function w | property w => cases hkind
    · cases hdoc : d.docString session t with
      | ok doc u => exact .inl ⟨d, _, u, .line hd hkind hdoc⟩
      | error e u => exact .inr ⟨e, u, .comment hd hdoc⟩

theorem enter_eq (hkind : d.node.kind ≠ .typeParameter) : (enter d : Visit σ (List String) Unit) =
    Visit.ofQuery d.docString >>= fun doc => Visit.change (· ++ [render d.simpleName doc]) := by
  cases d with
  | typeParameter w => exact absurd rfl hkind
  | classLike w | function w | property w => rfl

/-- What comes after a declaration finds its line behind those from before. -/
theorem Opens.run (h : Opens session s key d own t) (f : Declaration → Visit σ (List String) α)
    (before : List String) :
    (Visit.ofQuery (Query.declaration key) >>= fun d => enter d >>= fun _ => f d) session (before, s) =
      f d session (before ++ own, t) := by
  cases h with
  | typeParameter hd =>
    rw [Action.bind_of_ok (Visit.ofQuery_of_ok hd), List.append_nil]
    rfl
  | line hd hkind hdoc =>
    rw [Action.bind_of_ok (Visit.ofQuery_of_ok hd), enter_eq hkind]
    exact Action.bind_of_ok ((Action.bind_of_ok (Visit.ofQuery_of_ok hdoc) _).trans rfl) _

theorem Refused.run (h : Refused session s key e t) (f : Declaration → Visit σ (List String) α)
    (before : List String) :
    (Visit.ofQuery (Query.declaration key) >>= fun d => enter d >>= fun _ => f d) session (before, s) =
      .error e (before, t) := by
  cases h with
  | declaration hd => exact Action.bind_of_error (Visit.ofQuery_of_error hd) _
  | @comment d e t u hd hdoc =>
    have hkind : d.node.kind ≠ .typeParameter := by
      cases d with
      | typeParameter w => cases hdoc
      | classLike w | function w | property w => nofun
    rw [Action.bind_of_ok (Visit.ofQuery_of_ok hd), enter_eq hkind]
    exact Action.bind_of_error (Action.bind_of_error (Visit.ofQuery_of_error hdoc) _) _

/-! ## Declarations in declarations -/

/-- The error of declarations that are nested too deep. -/
def tooDeep (d : Declaration) : GraphError :=
  .inconsistency s!"declarations in `{d.simpleName}`" "finite nesting" "symbol that contains itself"

/-- All declarations under some keys and everything in them, at most `depth` levels down, are entered, each
before what is in it. The lines are theirs. -/
inductive Collects (session : Session σ) :
    Nat → SessionState σ → List SymbolKey → List String → SessionState σ → Prop
  | nil {depth : Nat} {s : SessionState σ} : Collects session depth s [] [] s
  | leaf {depth : Nat} {s t u : SessionState σ} {key : SymbolKey} {rest : List SymbolKey} {d : Declaration}
      {own after : List String} : Opens session s key d own t → d.declarationKeys = [] →
    Collects session depth t rest after u → Collects session depth s (key :: rest) (own ++ after) u
  | node {depth : Nat} {s t u v : SessionState σ} {key : SymbolKey} {rest : List SymbolKey} {d : Declaration}
      {own below after : List String} : Opens session s key d own t →
    Collects session depth t d.declarationKeys below u → Collects session (depth + 1) u rest after v →
    Collects session (depth + 1) s (key :: rest) (own ++ below ++ after) v

/-- The way through the declarations under some keys breaks off. The lines are those of everything that was
entered before. -/
inductive Breaks (session : Session σ) :
    Nat → SessionState σ → List SymbolKey → List String → GraphError → SessionState σ → Prop
  /-- The first declaration is not entered. -/
  | refused {depth : Nat} {s t : SessionState σ} {key : SymbolKey} {rest : List SymbolKey} {e : GraphError} :
    Refused session s key e t → Breaks session depth s (key :: rest) [] e t
  /-- The first declaration is entered, but what is in it is too deep. -/
  | deep {s t : SessionState σ} {key : SymbolKey} {rest : List SymbolKey} {d : Declaration}
      {own : List String} : Opens session s key d own t → d.declarationKeys ≠ [] →
    Breaks session 0 s (key :: rest) own (tooDeep d) t
  /-- The first declaration is entered, and the way breaks off somewhere in it. -/
  | within {depth : Nat} {s t u : SessionState σ} {key : SymbolKey} {rest : List SymbolKey} {d : Declaration}
      {own below : List String} {e : GraphError} : Opens session s key d own t →
    Breaks session depth t d.declarationKeys below e u →
    Breaks session (depth + 1) s (key :: rest) (own ++ below) e u
  /-- The first declaration goes well, and the way breaks off behind it. -/
  | past {depth : Nat} {s t u : SessionState σ} {key : SymbolKey} {rest : List SymbolKey}
      {own after : List String} {e : GraphError} : Collects session depth s [key] own t →
    Breaks session depth t rest after e u → Breaks session depth s (key :: rest) (own ++ after) e u

theorem Collects.append {u : SessionState σ} (h : Collects session depth s keys lines t)
    (hrest : Collects session depth t rest after u) :
    Collects session depth s (keys ++ rest) (lines ++ after) u := by
  induction h with
  | nil => exact hrest
  | leaf hopens hkeys _ ih =>
    rw [List.cons_append, List.append_assoc]
    exact .leaf hopens hkeys (ih hrest)
  | node hopens hbelow _ _ ih =>
    rw [List.cons_append, List.append_assoc]
    exact .node hopens hbelow (ih hrest)

theorem Breaks.append (h : Breaks session depth s keys lines e t) :
    Breaks session depth s (keys ++ rest) lines e t := by
  induction h with
  | refused hrefused => exact .refused hrefused
  | deep hopens hkeys => exact .deep hopens hkeys
  | within hopens hbelow _ => exact .within hopens hbelow
  | past hfirst _ ih => exact .past hfirst ih

/-! ## Every way comes to an end -/

/-- If this is so for one declaration, it is so for some in turn. -/
theorem collects_or_breaks_of_single (session : Session σ) (depth : Nat)
    (hsingle : ∀ s key, (∃ own t, Collects session depth s [key] own t) ∨
      ∃ own e t, Breaks session depth s [key] own e t) (s : SessionState σ) (keys : List SymbolKey) :
    (∃ lines t, Collects session depth s keys lines t) ∨ ∃ lines e t, Breaks session depth s keys lines e t := by
  induction keys generalizing s with
  | nil => exact .inl ⟨[], s, .nil⟩
  | cons key rest ih =>
    rcases hsingle s key with ⟨own, t, hfirst⟩ | ⟨own, e, t, hfirst⟩
    · rcases ih t with ⟨after, u, hafter⟩ | ⟨after, e, u, hafter⟩
      · exact .inl ⟨own ++ after, u, hfirst.append hafter⟩
      · exact .inr ⟨own ++ after, e, u, .past hfirst hafter⟩
    · exact .inr ⟨own, e, t, hfirst.append⟩

theorem collects_or_breaks (session : Session σ) (depth : Nat) (s : SessionState σ) (keys : List SymbolKey) :
    (∃ lines t, Collects session depth s keys lines t) ∨ ∃ lines e t, Breaks session depth s keys lines e t := by
  induction depth generalizing s keys with
  | zero =>
    refine collects_or_breaks_of_single session 0 (fun s key => ?_) s keys
    rcases opens_or_refused session s key with ⟨d, own, t, hopens⟩ | ⟨e, t, hrefused⟩
    · by_cases hkeys : d.declarationKeys = []
      · exact .inl ⟨_, t, .leaf hopens hkeys .nil⟩
      · exact .inr ⟨own, _, t, .deep hopens hkeys⟩
    · exact .inr ⟨[], e, t, .refused hrefused⟩
  | succ depth ih =>
    refine collects_or_breaks_of_single session (depth + 1) (fun s key => ?_) s keys
    rcases opens_or_refused session s key with ⟨d, own, t, hopens⟩ | ⟨e, t, hrefused⟩
    · rcases ih t d.declarationKeys with ⟨below, u, hbelow⟩ | ⟨below, e, u, hbelow⟩
      · exact .inl ⟨_, u, .node hopens hbelow .nil⟩
      · exact .inr ⟨_, e, u, .within hopens hbelow⟩
    · exact .inr ⟨[], e, t, .refused hrefused⟩

/-! ## Visits go these ways -/

section Visits

variable (before : List String)

theorem Opens.nestedWithin_leaf (h : Opens session s key d own t) (hkeys : d.declarationKeys = []) :
    Visit.nestedWithin enter depth key session (before, s) = .ok () (before ++ own, t) := by
  rw [Visit.nestedWithin.eq_def]
  refine (h.run _ before).trans ?_
  rw [hkeys]
  rfl

theorem Opens.nestedWithin_zero (h : Opens session s key d own t) (hkeys : d.declarationKeys ≠ []) :
    Visit.nestedWithin enter 0 key session (before, s) = .error (tooDeep d) (before ++ own, t) := by
  rw [Visit.nestedWithin]
  refine (h.run _ before).trans ?_
  cases hd : d.declarationKeys with
  | nil => exact absurd hd hkeys
  | cons => rfl

theorem Opens.nestedWithin_succ (h : Opens session s key d own t) :
    Visit.nestedWithin enter (depth + 1) key session (before, s) =
      d.declarationKeys.forM (Visit.nestedWithin enter depth) session (before ++ own, t) := by
  rw [Visit.nestedWithin]
  refine (h.run _ before).trans ?_
  cases d.declarationKeys <;> rfl

theorem Refused.nestedWithin (h : Refused session s key e t) :
    Visit.nestedWithin enter depth key session (before, s) = .error e (before, t) := by
  rw [Visit.nestedWithin.eq_def]
  exact h.run _ before

theorem Collects.run (h : Collects session depth s keys lines t) :
    keys.forM (Visit.nestedWithin enter depth) session (before, s) = .ok () (before ++ lines, t) := by
  induction h generalizing before with
  | nil =>
    rw [List.append_nil]
    rfl
  | leaf hopens hkeys _ ih =>
    refine (Action.bind_of_ok (hopens.nestedWithin_leaf before hkeys) _).trans ((ih _).trans ?_)
    rw [List.append_assoc]
  | node hopens _ _ ihbelow ih =>
    have hfirst := (hopens.nestedWithin_succ before).trans (ihbelow _)
    refine (Action.bind_of_ok hfirst _).trans ((ih _).trans ?_)
    simp only [List.append_assoc]

theorem Breaks.run (h : Breaks session depth s keys lines e t) :
    keys.forM (Visit.nestedWithin enter depth) session (before, s) = .error e (before ++ lines, t) := by
  induction h generalizing before with
  | refused hrefused =>
    refine (Action.bind_of_error (hrefused.nestedWithin before) _).trans ?_
    rw [List.append_nil]
  | deep hopens hkeys => exact Action.bind_of_error (hopens.nestedWithin_zero before hkeys) _
  | within hopens _ ih =>
    have hfirst := (hopens.nestedWithin_succ before).trans (ih _)
    refine (Action.bind_of_error hfirst _).trans ?_
    rw [List.append_assoc]
  | past hcollects _ ih =>
    obtain ⟨_, _, hfirst, hdone⟩ := Action.bind_eq_ok (hcollects.run before)
    cases hdone
    refine (Action.bind_of_ok hfirst _).trans ((ih _).trans ?_)
    rw [List.append_assoc]

end Visits

/-! ## What the lines are in the end -/

/-- The line of a declaration with the comment that it has from now on, or none for a type parameter. -/
inductive Entry (session : Session σ) (s : SessionState σ) : Declaration → List String → Prop
  | typeParameter (w : TypeParameterNode) : Entry session s (.typeParameter w) []
  | line {d : Declaration} {doc : Option String} : d.node.kind ≠ .typeParameter →
    d.docString session s = .ok doc s → Entry session s d [render d.simpleName doc]

/-- The lines of the declarations under some keys and of everything in them, each before what is in it. -/
inductive Listing (session : Session σ) (s : SessionState σ) : List SymbolKey → List String → Prop
  | nil : Listing session s [] []
  | cons {key : SymbolKey} {rest : List SymbolKey} {d : Declaration} {own below after : List String} :
    d.FoundUnder s.caches key → Entry session s d own → Listing session s d.declarationKeys below →
    Listing session s rest after → Listing session s (key :: rest) (own ++ below ++ after)

theorem Listing.leaf (hd : d.FoundUnder s.caches key) (hown : Entry session s d own)
    (hkeys : d.declarationKeys = []) (hrest : Listing session s rest after) :
    Listing session s (key :: rest) (own ++ after) := by
  rw [← List.append_nil own]
  exact .cons hd hown (hkeys ▸ .nil) hrest

theorem docString_regular (d : Declaration) : Regular (fun _ => True) 2 (d.docString : Query σ _) := by
  cases d with
  | function w => exact w.docString_kept.regular
  | classLike w | property w | typeParameter w => exact .consult (.pure _)

/-- A comment that was read is read again, whatever comes between. -/
theorem docString_again {doc : Option String} {u : SessionState σ} (h : d.docString session s = .ok doc t)
    (hgrows : t.Grows u) : d.docString session u = .ok doc u := by
  cases d with
  | function w =>
    have hcell := Query.get?_of_memoize h
    exact Query.memoize_of_get? (hgrows.memo hcell) _
  | classLike w | property w | typeParameter w =>
    cases h
    rfl

theorem Entry.grows (h : Entry session s d own) (hgrows : s.Grows t) : Entry session t d own := by
  cases h with
  | typeParameter w => exact .typeParameter w
  | line hkind hdoc => exact .line hkind (docString_again hdoc hgrows)

theorem Listing.grows (h : Listing session s keys lines) (hgrows : s.Grows t) :
    Listing session t keys lines := by
  induction h with
  | nil => exact .nil
  | cons hd hown _ _ ihbelow ihafter =>
    exact .cons (hd.grows hgrows.caches) (hown.grows hgrows) ihbelow ihafter

theorem declaration_grows (h : Query.declaration key session s = .ok d t) : s.Grows t := by
  have hregular : Regular (fun _ => True) 2 (Query.declaration key : Query σ _) := Query.declaration_regular key
  exact Regular.grows_of_ok hregular h

theorem Opens.grows (h : Opens session s key d own t) : s.Grows t := by
  cases h with
  | typeParameter hd => exact declaration_grows hd
  | line hd _ hdoc => exact (declaration_grows hd).trans ((docString_regular _).grows_of_ok hdoc)

theorem Opens.found (h : Opens session s key d own t) : d.FoundUnder t.caches key := by
  cases h with
  | typeParameter hd => exact Query.declaration_found hd
  | line hd _ hdoc => exact (Query.declaration_found hd).grows ((docString_regular _).grows_of_ok hdoc).caches

theorem Opens.entry (h : Opens session s key d own t) : Entry session t d own := by
  cases h with
  | typeParameter => exact .typeParameter _
  | line _ hkind hdoc => exact .line hkind (docString_again hdoc (.refl _))

theorem Collects.grows (h : Collects session depth s keys lines t) : s.Grows t := by
  induction h with
  | nil => exact .refl _
  | leaf hopens _ _ ih => exact hopens.grows.trans ih
  | node hopens _ _ ihbelow ih => exact hopens.grows.trans (ihbelow.trans ih)

/-- Nothing that comes later changes the line of a declaration. -/
theorem Collects.listing (h : Collects session depth s keys lines t) : Listing session t keys lines := by
  induction h with
  | nil => exact .nil
  | leaf hopens hkeys hrest ih =>
    have hgrows := hrest.grows
    exact .leaf (hopens.found.grows hgrows.caches) (hopens.entry.grows hgrows) hkeys ih
  | node hopens hbelow hrest ihbelow ih =>
    have hgrows := hbelow.grows.trans hrest.grows
    exact .cons (hopens.found.grows hgrows.caches) (hopens.entry.grows hgrows)
      (ihbelow.grows hrest.grows) ih

/-! ## Rounds -/

/-- To go through the files is to go through what they declare. -/
theorem forM_nested (session : Session σ) (files : List FileNode) (x : List String × SessionState σ) :
    (files.forM fun file => Visit.nested enter file.file.declarations) session x =
      (files.flatMap (·.file.declarations)).forM (Visit.nestedWithin enter session.oracle.nesting)
        session x := by
  have hnested (keys : List SymbolKey) (x : List String × SessionState σ) :
      Visit.nested enter keys session x =
        keys.forM (Visit.nestedWithin enter session.oracle.nesting) session x := rfl
  induction files generalizing x with
  | nil => rfl
  | cons file files ih =>
    simp only [List.forM_eq_forM] at ih hnested ⊢
    simp only [List.flatMap_cons, List.forM_cons, List.forM_append, Action.bind_apply, hnested, ih]

end DocLine

/-- A round adds the same lines to whatever is there. If there is a list of files, the round goes through what
they declare, and either is through with it or breaks off. If it is through, the lines that it adds are
those of the declarations in the files and of everything in them, and all lines are sorted. If it breaks
off, the lines of everything that it entered before stay behind the others, as they are, where the next
round finds them. -/
theorem docLines_keeps (session : Session σ) (s : SessionState σ) :
    match Query.newFiles session s with
    | .error e t => ∀ before, docLines.run session (before, s) = .error e (before, t)
    | .ok files s' =>
      let keys := files.flatMap (·.file.declarations)
      let depth := session.oracle.nesting
      ((∃ lines t, DocLine.Collects session depth s' keys lines t) ∨
        ∃ lines e t, DocLine.Breaks session depth s' keys lines e t) ∧
      (∀ lines t, DocLine.Collects session depth s' keys lines t →
        DocLine.Listing session t keys lines ∧
          ∀ before, docLines.run session (before, s) = .ok [] (sortTexts (before ++ lines), t)) ∧
      ∀ lines e t, DocLine.Breaks session depth s' keys lines e t →
        ∀ before, docLines.run session (before, s) = .error e (before ++ lines, t) := by
  cases hfiles : Query.newFiles session s with
  | error e t =>
    intro before
    have hprocess : docLines.process session (before, s) = .error e (before, t) :=
      Action.bind_of_error (Visit.ofQuery_of_error hfiles) _
    exact Processor.run_of_error hprocess
  | ok files s' =>
    have hstart (before : List String) := Visit.ofQuery_of_ok (x := (before, s)) hfiles
    refine ⟨DocLine.collects_or_breaks _ _ s' _, fun lines t h => ⟨h.listing, fun before => ?_⟩,
      fun lines e t h before => ?_⟩
    · have hrun := (DocLine.forM_nested session files (before, s')).trans (h.run before)
      have hprocess : docLines.process session (before, s) = .ok [] (before ++ lines, t) :=
        (Action.bind_of_ok (hstart before) _).trans (Action.bind_of_ok hrun _)
      exact Processor.run_of_ok hprocess
    · have hrun := (DocLine.forM_nested session files (before, s')).trans (h.run before)
      have hprocess : docLines.process session (before, s) = .error e (before ++ lines, t) :=
        (Action.bind_of_ok (hstart before) _).trans (Action.bind_of_error hrun _)
      exact Processor.run_of_error hprocess

/-- A table that knows a file with two classes. -/
def SymbolTable.classPair : SymbolTable where
  files := #[{ path := "a.kt", package := "", declarations := [⟨0⟩, ⟨1⟩] }]
  symbols := #[
    { name := some "A", details := .classLike {} },
    { name := some "B", details := .classLike {} }]

/-- The second class is not known at first. The round that fails leaves the line of the first one, and after the
next round it is there twice. -/
theorem docLines_keeps_failedRound :
    let session : Session (Disturbed ReturnTypes) := { oracle := SymbolTable.classPair.oracle.disturbed }
    let start : SessionState (Disturbed ReturnTypes) := .start
      { inner := SymbolTable.classPair.returnTypes
        faults := [(.symbol ⟨1⟩, { remaining := some 1, message := "injected" })] }
    ∃ e t u, docLines.run session ([], start) = .error e (["A: null"], t) ∧
      docLines.run session (["A: null"], t) = .ok [] (["A: null", "A: null", "B: null"], u) := by
  intro session start
  have hfails : docLines.run.failure? session ([], start) = some (.oracle (.other "injected")) := by
    decide +kernel
  have hleft : (docLines.run.after session ([], start)).1 = ["A: null"] := by decide +kernel
  obtain ⟨⟨left, t⟩, hfirst⟩ := Action.exists_error_of_failure? hfails
  have hafter := Action.after_of_error hfirst
  cases (congrArg Prod.fst hafter).symm.trans hleft
  have hanswer : (docLines.process.answer? session (docLines.run.after session ([], start))).map
      List.isEmpty = some true := by
    decide +kernel
  -- The lines before they are sorted. To sort them cannot be computed, but there is only one order.
  have hlines : (docLines.process.after session (docLines.run.after session ([], start))).1 =
      ["A: null", "A: null", "B: null"] := by
    decide +kernel
  rw [hafter] at hanswer hlines
  obtain ⟨deferred, hanswer, hdeferred⟩ := Option.map_eq_some_iff.mp hanswer
  cases List.isEmpty_iff.mp hdeferred
  obtain ⟨⟨lines, u⟩, hsecond⟩ := Action.exists_ok_of_answer? hanswer
  cases (congrArg Prod.fst (Action.after_of_ok hsecond)).symm.trans hlines
  have hsorted : sortTexts ["A: null", "A: null", "B: null"] = ["A: null", "A: null", "B: null"] :=
    eq_of_perm_of_sorted (perm_sortTexts _) (pairwise_sortTexts _) (by decide +kernel)
  refine ⟨_, t, u, hfirst, (Processor.run_of_ok hsecond).trans ?_⟩
  exact congrArg (fun lines => EStateM.Result.ok [] (lines, u)) hsorted

end SymbolGraph
