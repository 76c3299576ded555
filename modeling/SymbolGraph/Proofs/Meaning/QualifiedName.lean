import Mathlib.Data.List.Nodup
import Mathlib.Logic.Relation
import SymbolGraph.Proofs.Meaning.Containment
import SymbolGraph.Proofs.Oracle.ClassPath

/-!
# What qualified names mean

A name is found out along the chain of containers, and each name on the chain is kept; how far
the chain may still go when a name is needed depends on where it was asked for. On a finite
chain no symbol occurs twice, so the chain is never too long for the table, wherever it is
entered.
-/

namespace SymbolGraph

variable {world : World} {caches : Caches}

/-! ## Chains of containers -/

namespace World

/-- The name of the first declaration is made from the name of the second one. -/
def Within (world : World) (d outer : Declaration) : Prop :=
  ∀ nameOf, world.nameUnder d nameOf =
    (do return (← nameOf outer).map fun name => name ++ "." ++ d.simpleName)

theorem Within.intro {d outer : Declaration} {parent : NodeEntity} (hbody : d.symbol.kind ≠ .inBody)
    (hparent : world.containerNode d.symbol = .ok (some parent)) (hfile : parent.kind ≠ .file)
    (houter : world.declared parent = .ok (some outer)) : world.Within d outer := by
  intro nameOf
  simp only [nameUnder, if_neg hbody, hparent, Meaning.ok_bind, if_neg hfile, houter]

/-- The name of a declaration depends on at most one other declaration. -/
theorem nameUnder_cases (d : Declaration) :
    (∃ m, ∀ nameOf, world.nameUnder d nameOf = m) ∨
      ∃ outer, world.Genuine outer ∧ world.Within d outer := by
  unfold nameUnder
  by_cases hbody : d.symbol.kind = .inBody
  · refine .inl ⟨return none, fun nameOf => ?_⟩
    rw [if_pos hbody]
  · simp only [if_neg hbody]
    cases hparent : world.containerNode d.symbol with
    | error f => exact .inl ⟨.error f, fun nameOf => rfl⟩
    | ok parent =>
      cases parent with
      | none => exact .inl ⟨_, fun nameOf => rfl⟩
      | some parent =>
        by_cases hfile : parent.kind = .file
        · simp only [Meaning.ok_bind, if_pos hfile]
          exact .inl ⟨_, fun nameOf => rfl⟩
        · simp only [Meaning.ok_bind, if_neg hfile]
          cases hdeclared : world.declared parent with
          | error f => exact .inl ⟨.error f, fun nameOf => rfl⟩
          | ok outer =>
            cases outer with
            | none => exact .inl ⟨_, fun nameOf => rfl⟩
            | some outer =>
              have hgenuine : world.Genuine outer := by
                rw [Genuine, ← declared_eq_some hdeclared]
                exact hdeclared
              exact .inr ⟨outer, hgenuine, .intro hbody hparent hfile hdeclared⟩

/-! ## Depth of names -/

variable {n m : Nat} {d outer : Declaration} {name : Option String}

/-- The name of a declaration is found with what the depth leaves for the declaration around it. -/
theorem Within.ok (h : world.Within d outer) (hname : world.qualifiedNameWithin n d = .ok name) :
    ∃ k name', n = k + 1 ∧ world.qualifiedNameWithin k outer = .ok name' := by
  cases n with
  | zero =>
    rw [qualifiedNameWithin, h] at hname
    cases hname
  | succ k =>
    rw [qualifiedNameWithin, h] at hname
    obtain ⟨name', houter, _⟩ := Meaning.bind_eq_ok hname
    exact ⟨k, name', rfl, houter⟩

theorem qualifiedNameWithin_const {result : Meaning (Option String)}
    (h : ∀ nameOf, world.nameUnder d nameOf = result) (n : Nat) :
    world.qualifiedNameWithin n d = result := by
  cases n <;> exact h _

/-- On the way outwards names are found with less and less depth. -/
theorem exists_lt_of_transGen (h : Relation.TransGen world.Within d outer)
    (hname : world.qualifiedNameWithin n d = .ok name) :
    ∃ k < n, ∃ name', world.qualifiedNameWithin k outer = .ok name' := by
  induction h with
  | single hwithin =>
    obtain ⟨k, name', rfl, houter⟩ := hwithin.ok hname
    exact ⟨k, Nat.lt_succ_self k, name', houter⟩
  | tail _ hwithin ih =>
    obtain ⟨k, hlt, name', hmiddle⟩ := ih
    obtain ⟨k', name'', rfl, houter⟩ := hwithin.ok hmiddle
    exact ⟨k', Nat.lt_trans (Nat.lt_succ_self k') hlt, name'', houter⟩

/-- Declarations that lie in one another have no name at any depth. -/
theorem qualifiedNameWithin_cycle (h : Relation.TransGen world.Within d d) :
    world.qualifiedNameWithin n d ≠ .ok name := by
  induction n using Nat.strongRecOn generalizing name with
  | ind n ih =>
    intro hname
    obtain ⟨k, hlt, name', hname'⟩ := exists_lt_of_transGen h hname
    exact ih k hlt hname'

/-- The declarations that a search for a name has gone through, down to one that may be gone through at
this depth. -/
structure Trail (world : World) (depth : Nat) (d : Declaration) (trail : List Declaration) :
    Prop where
  genuine : ∀ t ∈ trail, world.Genuine t
  nodup : (trail.map Declaration.key).Nodup
  leads : ∀ t ∈ trail, Relation.TransGen world.Within t d
  length : trail.length + depth = world.table.symbols.size

namespace Trail

variable {trail : List Declaration}

/-- The search goes on, unless it goes round in a circle. -/
theorem cons_nodup (h : Trail world n d trail) (hname : world.qualifiedNameWithin m d = .ok name)
    (hd : world.Genuine d) : ((d :: trail).map Declaration.key).Nodup := by
  simp only [List.map_cons, List.nodup_cons]
  refine ⟨fun hmem => ?_, h.nodup⟩
  obtain ⟨t, ht, hkey⟩ := List.mem_map.mp hmem
  have hsame : t = d := (h.genuine t ht).unique hd hkey
  subst hsame
  exact qualifiedNameWithin_cycle (h.leads t ht) hname

/-- There is no room in the table for a trail that is longer. -/
theorem length_le {ds : List Declaration} (hgenuine : ∀ d ∈ ds, world.Genuine d)
    (hnodup : (ds.map Declaration.key).Nodup) : ds.length ≤ world.table.symbols.size := by
  have hlength : (ds.map Declaration.key).length = ds.length := List.length_map _
  rw [← hlength]
  refine SymbolKey.length_le_of_nodup hnodup fun key hkey => ?_
  obtain ⟨d, hd, rfl⟩ := List.mem_map.mp hkey
  exact (hgenuine d hd).index_lt

/-- What is left of the depth on a trail is enough for every name that can be found at all. -/
theorem ok (h : Trail world n d trail) (hd : world.Genuine d)
    (hname : world.qualifiedNameWithin m d = .ok name) :
    world.qualifiedNameWithin n d = .ok name := by
  induction n generalizing m d name trail with
  | zero =>
    -- A trail that has used up the depth is as long as the table, and there is one declaration more.
    have hle := length_le (List.forall_mem_cons.mpr ⟨hd, h.genuine⟩) (h.cons_nodup hname hd)
    have hlength := h.length
    simp only [List.length_cons] at hle
    omega
  | succ n ih =>
    rcases world.nameUnder_cases d with ⟨result, hconst⟩ | ⟨outer, houter, hwithin⟩
    · rw [qualifiedNameWithin_const hconst] at hname ⊢
      exact hname
    · obtain ⟨k, name', rfl, hname'⟩ := hwithin.ok hname
      have htrail : Trail world n outer (d :: trail) := by
        refine ⟨List.forall_mem_cons.mpr ⟨hd, h.genuine⟩, h.cons_nodup hname hd, ?_, ?_⟩
        · intro t ht
          rcases List.mem_cons.mp ht with rfl | ht
          · exact .single hwithin
          · exact (h.leads t ht).tail hwithin
        · have hlength := h.length
          simp only [List.length_cons]
          omega
      rw [qualifiedNameWithin, hwithin, ih htrail houter hname']
      rw [qualifiedNameWithin, hwithin, hname'] at hname
      exact hname

end Trail

/-- A name that is found with any depth is found with that of the table. -/
theorem qualifiedName_of_within (hd : world.Genuine d)
    (hname : world.qualifiedNameWithin n d = .ok name) : world.qualifiedName d = .ok name := by
  have htrail : Trail world world.table.symbols.size d [] := by
    refine ⟨?_, ?_, ?_, ?_⟩ <;> simp
  exact htrail.ok hd hname

/-- With this depth every name is found that can be found at all. -/
def Suffices (world : World) (depth : Nat) (d : Declaration) : Prop :=
  ∀ name, world.qualifiedNameWithin depth d = .ok name ↔ world.qualifiedName d = .ok name

/-- What is left of a depth that suffices suffices for the declaration around. -/
theorem Suffices.within {depth : Nat} (h : world.Suffices (depth + 1) d) (hd : world.Genuine d)
    (houter : world.Genuine outer) (hwithin : world.Within d outer) :
    world.Suffices depth outer := by
  intro name
  constructor
  · exact qualifiedName_of_within houter
  · intro hname
    -- The name of the inner declaration is found one level further down, so it is found here too.
    have hinner : world.qualifiedNameWithin (world.table.symbols.size + 1) d =
        .ok (name.map fun name => name ++ "." ++ d.simpleName) := by
      rw [qualifiedNameWithin, hwithin]
      rw [qualifiedName] at hname
      rw [hname, Meaning.ok_bind]
      rfl
    have hfound := (h _).mpr (qualifiedName_of_within hd hinner)
    obtain ⟨k, name', hk, hname'⟩ := hwithin.ok hfound
    cases hk
    have hsame := qualifiedName_of_within houter hname'
    rw [hname] at hsame
    cases hsame
    exact hname'

end World

/-! ## Qualified names -/

namespace Declaration

variable {d : Declaration} {n : NodeEntity}

theorem nameUnder_answers (hd : View.declaration.Shows caches d n)
    {nameOf : Declaration → Query ReturnTypes (Option String)}
    {nameOf' : Declaration → Meaning (Option String)}
    (h : ∀ {outer m later}, caches.Grows later → Faithful world later →
      View.declaration.Shows later outer m → world.Within d.blank outer.blank →
      Answers world later .plain (nameOf outer) (nameOf' outer.blank)) :
    Answers world caches .plain (d.nameUnder nameOf) (world.nameUnder d.blank nameOf') := by
  unfold nameUnder World.nameUnder
  simp only [blank_symbol, blank_packageName, blank_simpleName]
  by_cases hbody : d.symbol.kind = .inBody
  · rw [if_pos hbody, if_pos hbody]
    exact .pure rfl
  · rw [if_neg hbody, if_neg hbody]
    refine (parent_answers hd).bind_of ?_
    intro node parent later hparent hgrows _ hnode
    cases hnode with
    | none => exact .pure rfl
    | @some node parent hat =>
      -- The query looks at the kind of the handle, the meaning at that of the entity.
      have hkind : node.kind = parent.kind := by
        obtain ⟨_, _, rfl⟩ := hat
        rfl
      by_cases hfile : parent.kind = .file
      · simp only [hkind, if_pos hfile]
        exact .pure rfl
      · simp only [hkind, if_neg hfile]
        refine (Query.nodeDeclaration_answers hat).bind_of ?_
        intro outer p later' houter hgrows' hfaithful hshows
        cases hshows with
        | none => exact .pure rfl
        | @some outer p hshows =>
          obtain ⟨hshows, rfl⟩ := hshows
          have hwithin : world.Within d.blank outer.blank :=
            .intro (by simpa using hbody) (by simpa using hparent) hfile houter
          refine (h (hgrows.trans hgrows') hfaithful hshows hwithin).map ?_
          rintro name _ _ rfl
          rfl

/-- A qualified name is kept with its meaning, whatever the depth at which it was found. -/
theorem memoize_qualifiedName (hd : View.declaration.Shows caches d n)
    {compute : Query ReturnTypes (Option String)} {m : Meaning (Option String)}
    (hcompute : Answers world caches .plain compute m)
    (hm : ∀ name, m = .ok name ↔ world.qualifiedName d.blank = .ok name) :
    Answers world caches .plain (Query.memoize (d.node.cell .qualifiedName) compute) m := by
  refine .of_faithful fun hgrows hfaithful => ?_
  have hcompute := hcompute.grows hgrows
  obtain ⟨kind, e⟩ := n
  obtain ⟨w, hw, hsort⟩ := View.declaration.grows hd hgrows
  have hportrait := (hfaithful.fits hw).portrait
  -- Each sort of declaration has a field of its own for the name.
  cases kind <;> cases hsort
  · refine .memoize .classQualifiedName hw hcompute ?_
    rw [LazyField.meaning, hportrait]
    exact hm
  · refine .memoize .functionQualifiedName hw hcompute ?_
    rw [LazyField.meaning, hportrait]
    exact hm
  · refine .memoize .propertyQualifiedName hw hcompute ?_
    rw [LazyField.meaning, hportrait]
    exact hm
  · refine .memoize .typeParameterQualifiedName hw hcompute ?_
    rw [LazyField.meaning, hportrait]
    exact hm

theorem qualifiedNameWithin_answers {depth : Nat} (hd : View.declaration.Shows caches d n)
    (hdepth : world.Suffices depth d.blank) :
    Answers world caches .plain (d.qualifiedNameWithin depth)
      (world.qualifiedNameWithin depth d.blank) := by
  induction depth generalizing caches d n with
  | zero =>
    refine memoize_qualifiedName hd (nameUnder_answers hd ?_) hdepth
    intro outer m later _ _ _ _
    refine .throw ?_
    rw [blank_simpleName]
    rfl
  | succ depth ih =>
    refine memoize_qualifiedName hd (.of_faithful fun hgrows hfaithful => ?_) hdepth
    have hd := View.declaration.grows hd hgrows
    refine nameUnder_answers hd ?_
    intro outer m later _ hlater houter hwithin
    have hgenuine := genuine_of_shows hfaithful hd
    exact ih houter (hdepth.within hgenuine (genuine_of_shows hlater houter) hwithin)

theorem qualifiedName_answers (hd : View.declaration.Shows caches d n) :
    Answers world caches .plain d.qualifiedName (world.qualifiedName d.blank) := by
  intro s hs hgrows
  exact qualifiedNameWithin_answers hd (fun _ => Iff.rfl) s hs hgrows

end Declaration

end SymbolGraph
