import SymbolGraph.Proofs.Meaning.Signature
import SymbolGraph.Proofs.Session.Operation

/-!
# What reading leaves alone

A session over a table changes the table in one way only: before the return type of a platform
method is read, it has that type settled. All other return types stay as they are, and the cells
that keep them stay empty or filled.
-/

namespace SymbolGraph

variable {α : Type} {world : World} {s t u : SessionState ReturnTypes} {owner : SymbolKey}

/-! ## Return types of one function -/

/-- A deferred type takes the place of the known one. -/
def settledEntry (entry : Option TypeKey × Option TypeKey) : Option TypeKey × Option TypeKey :=
  (entry.2.or entry.1, none)

theorem settledEntry_settledEntry (entry : Option TypeKey × Option TypeKey) :
    settledEntry (settledEntry entry) = settledEntry entry := rfl

namespace ReturnTypes

/-- What is known of the return type of a function, and what is deferred. -/
def entry (types : ReturnTypes) (function : SymbolKey) : Option TypeKey × Option TypeKey :=
  (types.known[function]?, types.deferred[function]?)

variable {types : ReturnTypes} {function : SymbolKey}

theorem entry_settle (types : ReturnTypes) (function : SymbolKey) :
    (types.settle function).entry function = settledEntry (types.entry function) := by
  unfold settle entry settledEntry
  cases hdeferred : types.deferred[function]? with
  | none => simp [hdeferred]
  | some type => simp

theorem entry_settle_of_ne {other : SymbolKey} (hne : other ≠ function) :
    (types.settle function).entry other = types.entry other :=
  Prod.ext (World.Admits.settle_of_ne types hne).1 (World.Admits.settle_of_ne types hne).2

/-- Settling a return type makes it known if there is anything to settle. -/
theorem settle_of_unknown (h : (types.settle function).known[function]? = none) :
    types.settle function = types := by
  unfold settle at h ⊢
  cases hdeferred : types.deferred[function]? with
  | none => rfl
  | some type => simp [hdeferred] at h

end ReturnTypes

/-! ## Frames -/

/-- Only these functions are touched. The return type of a touched one may have been settled, and the
cell that keeps it may have been filled. -/
structure SessionState.Touches (config : Config) (reads : FunctionNode → Prop)
    (s t : SessionState ReturnTypes) : Prop where
  entry : ∀ function, t.oracle.entry function = s.oracle.entry function ∨
    ∃ f, reads f ∧ f.key = function ∧ f.needsSettling config = true ∧
      t.oracle.entry function = settledEntry (s.oracle.entry function)
  cell : ∀ {id : FunctionId}, (∀ f, reads f → f.id ≠ id) →
    t.memo.get? (id.cell .returnType) = s.memo.get? (id.cell .returnType)

namespace SessionState.Touches

variable {config : Config} {reads : FunctionNode → Prop}

theorem of_eq (horacle : t.oracle = s.oracle) (hmemo : t.memo = s.memo) : Touches config reads s t :=
  ⟨fun _ => .inl (by rw [horacle]), fun _ => by rw [hmemo]⟩

theorem refl (s : SessionState ReturnTypes) : Touches config reads s s := of_eq rfl rfl

theorem mono {reads' : FunctionNode → Prop} (h : Touches config reads s t)
    (hreads : ∀ f, reads f → reads' f) : Touches config reads' s t := by
  refine ⟨fun function => ?_, fun hid => h.cell fun f hf => hid f (hreads f hf)⟩
  rcases h.entry function with hsame | ⟨f, hf, hsettled⟩
  · exact .inl hsame
  · exact .inr ⟨f, hreads f hf, hsettled⟩

theorem trans (h₁ : Touches config reads s t) (h₂ : Touches config reads t u) :
    Touches config reads s u := by
  refine ⟨fun function => ?_, fun hid => (h₂.cell hid).trans (h₁.cell hid)⟩
  rcases h₁.entry function with hsame | ⟨f, hf, hkey, hneeds, hsettled⟩
  · rw [← hsame]
    exact h₂.entry function
  · refine .inr ⟨f, hf, hkey, hneeds, ?_⟩
    rcases h₂.entry function with hsame | ⟨_, _, _, _, hsettled'⟩
    · rw [hsame, hsettled]
    -- What is settled is not changed by being settled again.
    · rw [hsettled', hsettled, settledEntry_settledEntry]

theorem settle {f : FunctionNode} (hf : reads f) (hneeds : f.needsSettling config = true)
    (s : SessionState ReturnTypes) :
    Touches config reads s { s with oracle := s.oracle.settle f.key } := by
  refine ⟨fun function => ?_, fun _ => rfl⟩
  by_cases hkey : function = f.key
  · subst hkey
    exact .inr ⟨f, hf, rfl, hneeds, ReturnTypes.entry_settle _ _⟩
  · exact .inl (ReturnTypes.entry_settle_of_ne hkey)

end SessionState.Touches

theorem SymbolTable.oracle_steady (table : SymbolTable) : table.oracle.Steady where
  inquiry i _ := by cases i <;> rfl
  glance g _ := by cases g <;> rfl

/-- Asked to settle a return type, the table does this or nothing. -/
theorem SymbolTable.resolveInteropReturnType_types (table : SymbolTable) (function owner : SymbolKey)
    (types : ReturnTypes) :
    (table.resolveInteropReturnType function owner types).2 = types ∨
      (table.resolveInteropReturnType function owner types).2 = types.settle function := by
  unfold resolveInteropReturnType
  split
  · exact .inl rfl
  · split
    · exact .inr rfl
    · exact .inl rfl

theorem FunctionNode.prepare_touches {reads : FunctionNode → Prop} {f : FunctionNode} (hf : reads f)
    (s : SessionState ReturnTypes) :
    s.Touches world.config reads (f.prepare.after world.session s) := by
  have hconfig : world.session.config = world.config := rfl
  rw [Action.after, prepare_apply, hconfig]
  cases hneeds : f.needsSettling world.config with
  | false => exact .refl s
  | true =>
    simp only [if_true]
    cases hcontainer : f.symbol.container with
    | none =>
      rw [settle_of_top hcontainer]
      exact .refl s
    | some owner =>
      rw [settle_of_member hcontainer]
      change s.Touches world.config reads ((Query.request _).after world.session s)
      rw [Query.request_after]
      rcases world.table.resolveInteropReturnType_types f.key owner s.oracle with hsame | hsettled
      · exact .of_eq hsame rfl
      · exact hsettled.symm ▸ .settle hf hneeds s

theorem Regular.touches {reads : FunctionNode → Prop} {tier : Nat} {q : Query ReturnTypes α}
    (h : Regular reads tier q) (s : SessionState ReturnTypes) :
    s.Touches world.config reads (q.after world.session s) := by
  have hsteady : world.session.oracle.Steady := world.table.oracle_steady
  have hconsult {α : Type} {q : Query ReturnTypes α} (h : Consult q) (s : SessionState ReturnTypes) :
      s.Touches world.config reads (q.after world.session s) :=
    .of_eq (h.oracle_eq hsteady s) (h.sameSession world.session s).memo
  induction h generalizing s with
  | consult h => exact hconsult h s
  | bind _ _ ihx ihf =>
    have hx := ihx s
    apply Action.after_bind (P := s.Touches world.config reads) hx
    intro a t hrun
    rw [Action.after_of_ok hrun] at hx
    exact hx.trans (ihf a t)
  | @wrap kind key make hmake =>
    have hmade := hconsult hmake.consult s
    apply Query.wrap_after (P := s.Touches world.config reads) (.refl s) hmade
    intro build t hrun
    rw [Action.after_of_ok hrun] at hmade
    exact hmade.trans (.of_eq rfl rfl)
  | @memoize cell compute _ hcell _ _ ih =>
    have hcomputed := ih s
    apply Query.memoize_after (P := s.Touches world.config reads) (.refl s) hcomputed
    intro v t hrun
    rw [Action.after_of_ok hrun] at hcomputed
    refine hcomputed.trans ⟨fun _ => .inl (by rw [t.fill_oracle]), fun {id} hid => ?_⟩
    rw [SessionState.fill]
    split
    · rfl
    · refine Memo.get?_insert_of_ne fun heq => ?_
      subst heq
      obtain ⟨f, hf, hcell⟩ := hcell rfl rfl
      have hindex : id.index = f.id.index := congrArg Cell.slot hcell
      exact hid f hf (congrArg Handle.mk hindex.symm)
  | @prepare f hf => exact f.prepare_touches hf s
  | @prepared f hf =>
    have hprepared : s.Touches world.config reads (f.prepare.after world.session s) :=
      f.prepare_touches hf s
    apply Action.after_bind (P := s.Touches world.config reads) hprepared
    intro _ t hrun
    rw [Action.after_of_ok hrun] at hprepared
    refine hprepared.trans ?_
    rw [Query.request_after]
    exact .of_eq rfl rfl

/-! ## Preparing functions -/

namespace FunctionNode

variable {f : FunctionNode}

/-- What becomes of the return types when a function is prepared. -/
def preparedTypes (f : FunctionNode) (config : Config) (types : ReturnTypes) : ReturnTypes :=
  if f.needsSettling config then types.settle f.key else types

theorem entry_preparedTypes (f : FunctionNode) (config : Config) (types : ReturnTypes) :
    (f.preparedTypes config types).entry f.key =
      if f.needsSettling config then settledEntry (types.entry f.key) else types.entry f.key := by
  unfold preparedTypes
  split
  · exact types.entry_settle f.key
  · rfl

/-- If nothing is known of a function after it was prepared, preparing it did nothing. -/
theorem preparedTypes_of_unknown {config : Config}
    (h : (f.preparedTypes config types).known[f.key]? = none) : f.preparedTypes config types = types := by
  unfold preparedTypes at h ⊢
  split at h
  · rw [if_pos (by assumption)]
    exact ReturnTypes.settle_of_unknown h
  · rw [if_neg (by assumption)]

theorem prepare_of_member (hsymbol : world.table.symbols[f.key.index]? = some f.symbol)
    (hcontainer : f.symbol.container = some owner) :
    f.prepare world.session s = .ok () { s with oracle := f.preparedTypes world.config s.oracle } := by
  have hconfig : world.session.config = world.config := rfl
  rw [prepare_apply, hconfig, preparedTypes]
  split
  · have hsettled : world.session.oracle.resolveInteropReturnType f.key owner s.oracle =
        (.ok (), s.oracle.settle f.key) := by
      change world.table.resolveInteropReturnType f.key owner s.oracle = _
      simp only [SymbolTable.resolveInteropReturnType, hsymbol, hcontainer, if_true]
    rw [settle_of_member hcontainer, Query.request_apply, hsettled]
  · rfl

/-- Preparing a function without a container that has to be settled fails. -/
theorem prepare_cases (hsymbol : world.table.symbols[f.key.index]? = some f.symbol)
    (s : SessionState ReturnTypes) :
    f.prepare world.session s = .ok () { s with oracle := f.preparedTypes world.config s.oracle } ∨
      ∃ e, f.prepare world.session s = .error e s := by
  cases hcontainer : f.symbol.container with
  | some owner => exact .inl (prepare_of_member hsymbol hcontainer)
  | none =>
    have hconfig : world.session.config = world.config := rfl
    rw [prepare_apply, hconfig, preparedTypes]
    split
    · exact .inr ⟨_, settle_of_top hcontainer world.session s⟩
    · exact .inl rfl

end FunctionNode

end SymbolGraph
