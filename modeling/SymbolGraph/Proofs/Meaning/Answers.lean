import SymbolGraph.Proofs.Meaning.Sound

/-!
# Queries that answer as they should

A query answers with a meaning if its outcome in every sound session shows that meaning, and
the session stays sound. The same holds of queries that are put together from such queries,
so the meaning of a field is found out from its definition, step by step.
-/

namespace SymbolGraph

variable {α β γ δ : Type} {world : World} {caches : Caches} {kind : Kind}

/-- In all sound sessions whose caches extend these ones, the query shows the meaning. -/
def Answers (world : World) (caches : Caches) (v : View α β) (q : Query ReturnTypes α)
    (m : Meaning β) : Prop :=
  ∀ s, Sound world s → caches.Grows s.caches →
    Sound world (q.after world.session s) ∧ s.caches.Grows (q.after world.session s).caches ∧
      v.Outcome (q world.session s) m

/-- The answers of a table do not change, and asking does not change the table. -/
theorem World.put_inquiry (i : Inquiry α) (types : ReturnTypes) :
    i.put world.session.oracle types = (world.peek i, types) := by
  cases i <;> rfl

namespace Answers

variable {v : View α β} {v' : View γ δ} {q : Query ReturnTypes α} {m : Meaning β}

theorem grows {later : Caches} (h : Answers world caches v q m) (hgrows : caches.Grows later) :
    Answers world later v q m :=
  fun s hs hlater => h s hs (hgrows.trans hlater)

theorem of_faithful (h : ∀ {later}, caches.Grows later → Faithful world later →
    Answers world later v q m) : Answers world caches v q m :=
  fun s hs hgrows => h hgrows hs.faithful s hs (.refl _)

/-! ## Sequences -/

theorem pure {a : α} {b : β} (h : v.Shows caches a b) :
    Answers world caches v (pure a) (pure b) :=
  fun _ hs hgrows => ⟨hs, .refl _, .ok (v.grows h hgrows)⟩

theorem throw {e : GraphError} {f : Failure} (h : View.failure.Shows caches e f) :
    Answers world caches v (throw e) (throw f) :=
  fun _ hs hgrows => ⟨hs, .refl _, .error (View.failure.grows h hgrows)⟩

/-- The first part decides whether there is a second one, and the second one may rely on what came
first. -/
theorem bind_to {x : Query ReturnTypes α} {f : α → Query ReturnTypes γ} {m' : Meaning δ}
    (hx : Answers world caches v x m) (herror : ∀ {e}, m = .error e → m' = .error e)
    (hf : ∀ {a b later}, m = .ok b → caches.Grows later → Faithful world later →
      v.Shows later a b → Answers world later v' (f a) m') :
    Answers world caches v' (x >>= f) m' := by
  intro s hs hgrows
  obtain ⟨hsound, hlater, houtcome⟩ := hx s hs hgrows
  cases hrun : x world.session s with
  | ok a t =>
    rw [Action.after_of_ok hrun] at hsound hlater
    rw [hrun] at houtcome
    cases houtcome with
    | ok hshows =>
      -- The second part starts from the state that the first one left behind.
      have hsecond := hf rfl (hgrows.trans hlater) hsound.faithful hshows t hsound (.refl _)
      rw [Action.after, Action.bind_of_ok hrun]
      exact ⟨hsecond.1, hlater.trans hsecond.2.1, hsecond.2.2⟩
  | error e t =>
    rw [Action.after_of_error hrun] at hsound hlater
    rw [hrun] at houtcome
    cases houtcome with
    | error hshows =>
      rw [Action.after, Action.bind_of_error hrun, herror rfl]
      exact ⟨hsound, hlater, .error hshows⟩

theorem bind_of {x : Query ReturnTypes α} {f : α → Query ReturnTypes γ} {g : β → Meaning δ}
    (hx : Answers world caches v x m)
    (hf : ∀ {a b later}, m = .ok b → caches.Grows later → Faithful world later →
      v.Shows later a b → Answers world later v' (f a) (g b)) :
    Answers world caches v' (x >>= f) (m >>= g) := by
  refine hx.bind_to ?_ ?_
  · rintro e rfl
    rfl
  · rintro a b later rfl hgrows hfaithful hshows
    exact hf rfl hgrows hfaithful hshows

theorem bind {x : Query ReturnTypes α} {f : α → Query ReturnTypes γ} {g : β → Meaning δ}
    (hx : Answers world caches v x m)
    (hf : ∀ {a b later}, caches.Grows later → Faithful world later → v.Shows later a b →
      Answers world later v' (f a) (g b)) :
    Answers world caches v' (x >>= f) (m >>= g) :=
  hx.bind_of fun _ hgrows hfaithful hshows => hf hgrows hfaithful hshows

/-- A first part that cannot fail has no part in the meaning. -/
theorem bind_ok {x : Query ReturnTypes α} {f : α → Query ReturnTypes γ} {b : β}
    {m' : Meaning δ} (hx : Answers world caches v x (.ok b))
    (hf : ∀ {a later}, caches.Grows later → Faithful world later → v.Shows later a b →
      Answers world later v' (f a) m') : Answers world caches v' (x >>= f) m' := by
  refine hx.bind_to ?_ ?_
  · rintro e herror
    cases herror
  · rintro a b later hok hgrows hfaithful hshows
    cases hok
    exact hf hgrows hfaithful hshows

/-- The last thing done to an answer. -/
theorem map {x : Query ReturnTypes α} {f : α → γ} {g : β → δ} (hx : Answers world caches v x m)
    (hf : ∀ {a b later}, v.Shows later a b → v'.Shows later (f a) (g b)) :
    Answers world caches v' (x >>= fun a => Pure.pure (f a)) (m >>= fun b => Pure.pure (g b)) :=
  hx.bind fun _ _ hshows => .pure (hf hshows)

/-- The same answer seen in another way. -/
theorem see {m' : Meaning δ} (h : Answers world caches v q m)
    {v' : View α δ} (herror : ∀ {e}, m = .error e → m' = .error e)
    (hok : ∀ {a b later}, m = .ok b → v.Shows later a b → ∃ b', m' = .ok b' ∧ v'.Shows later a b') :
    Answers world caches v' q m' := by
  intro s hs hgrows
  obtain ⟨hsound, hlater, houtcome⟩ := h s hs hgrows
  refine ⟨hsound, hlater, ?_⟩
  generalize q world.session s = outcome at houtcome
  cases houtcome with
  | ok hshows =>
    obtain ⟨b', hm, hshows'⟩ := hok rfl hshows
    rw [hm]
    exact .ok hshows'
  | error hshows =>
    rw [herror rfl]
    exact .error hshows

theorem mapM {κ : Type} {f : κ → Query ReturnTypes α} {g : κ → Meaning β}
    (h : ∀ key, Answers world caches v (f key) (g key)) (keys : List κ) :
    Answers world caches v.list (keys.mapM f) (keys.mapM g) := by
  induction keys with
  | nil =>
    simp only [List.mapM_nil]
    exact .pure .nil
  | cons key keys ih =>
    simp only [List.mapM_cons]
    refine .bind (h key) ?_
    intro first _ later hgrows _ hfirst
    refine .bind (ih.grows hgrows) ?_
    intro rest _ _ hgrows _ hrest
    exact .pure (.cons (v.grows hfirst hgrows) hrest)

/-! ## The table -/

theorem peek (i : Inquiry α) :
    Answers world caches .plain (Query.ask i.put) (.ok (world.peek i)) := by
  intro s hs _
  rw [Action.after, Query.ask_apply, World.put_inquiry]
  exact ⟨hs, .refl _, .ok rfl⟩

theorem inquire (i : Inquiry α) :
    Answers world caches .plain (Query.request i.put) (world.inquire i) := by
  refine .bind_ok (.peek i) ?_
  rintro answer later _ _ rfl
  unfold World.inquire
  cases world.peek i with
  | ok a => exact .pure rfl
  | error e => exact .throw rfl

theorem glance (g : Glance α) :
    Answers world caches .plain (Query.ask g.put) (.ok (world.glance g)) := by
  intro s hs _
  have hput : g.put world.session.oracle s.oracle = (world.glance g, s.oracle) := by
    cases g <;> rfl
  rw [Action.after, Query.ask_apply, hput]
  exact ⟨hs, .refl _, .ok rfl⟩

/-! ## Wrappers and cells -/

theorem resolve_wrapper {e : Entity kind} {h : Handle kind} (hat : e.At caches h) :
    Answers world caches (.wrapper kind) (Query.resolve h) (.ok e) := by
  intro s hs hgrows
  obtain ⟨w, hw, rfl⟩ := hat.grows hgrows
  have hrun := Query.resolve_of_get world.session (hs.faithful.get_of_find hw)
  rw [Action.after_of_ok hrun, hrun]
  exact ⟨hs, .refl _, .ok hw⟩

/-- The wrapper that the handle of an entity leads to is seen with its portrait. -/
theorem resolve {e : Entity kind} {h : Handle kind} (hat : e.At caches h) :
    Answers world caches (.portrait e) (Query.resolve h) (e.portrait world) := by
  intro s hs hgrows
  obtain ⟨w, hw, rfl⟩ := hat.grows hgrows
  have hrun := Query.resolve_of_get world.session (hs.faithful.get_of_find hw)
  rw [Action.after_of_ok hrun, hrun, (hs.faithful.fits hw).portrait]
  exact ⟨hs, .refl _, .ok ⟨hw, rfl⟩⟩

/-- A wrapper is created as the portrait of its entity shows it. -/
theorem wrap {e : Entity kind} {key : kind.Key} (hkey : e.keyIn caches = some key)
    {make : Query ReturnTypes (Handle kind → kind.Wrapper)}
    (hmake : Answers world caches (.plan e) make (e.portrait world)) :
    Answers world caches (.wrapper kind) (Query.wrap kind key make) (world.wrap e) := by
  intro s hs hgrows
  have hkey' : e.keyIn s.caches = some key := Entity.keyIn_grows hkey hgrows
  rw [Action.after, Query.wrap_apply, World.wrap]
  cases hlookup : (s.caches.get kind).lookup key with
  | some w =>
    -- Whatever made the wrapper that is there, it fits its entity.
    have hw : e.find s.caches = some w := Entity.find_eq_some.mpr ⟨key, hkey', hlookup⟩
    rw [(hs.faithful.fits hw).portrait]
    exact ⟨hs, .refl _, .ok hw⟩
  | none =>
    obtain ⟨hsound, hlater, houtcome⟩ := hmake s hs hgrows
    cases hrun : make world.session s with
    | ok build t =>
      rw [Action.after_of_ok hrun] at hsound hlater
      rw [hrun] at houtcome
      cases hportrait : e.portrait world with
      | error f =>
        rw [hportrait] at houtcome
        cases houtcome
      | ok p =>
        rw [hportrait] at houtcome
        cases houtcome with | ok hplan =>
        -- The making may have created other wrappers; the key still leads to this entity.
        have hcreated := (t.create_grows key build).caches
        have hkey'' : e.keyIn t.caches = some key := Entity.keyIn_grows hkey' hlater
        have hfits : ∀ id, e.Fits world t.caches (build id) := by
          intro id
          obtain ⟨_, hblank, habove⟩ := hplan id
          exact ⟨hblank ▸ hportrait, habove⟩
        refine ⟨hsound.create hkey'' (fun id => (hplan id).1) hfits, hlater.trans hcreated, .ok ?_⟩
        exact Entity.find_eq_some.mpr
          ⟨key, Entity.keyIn_grows hkey'' hcreated, Query.lookup_create t key build⟩
    | error e' t =>
      rw [Action.after_of_error hrun] at hsound hlater
      rw [hrun] at houtcome
      cases hportrait : e.portrait world with
      | ok p =>
        rw [hportrait] at houtcome
        cases houtcome
      | error f =>
        rw [hportrait] at houtcome
        cases houtcome with | error hshows =>
        exact ⟨hsound, hlater, .error hshows⟩

/-- A field is kept with its meaning. The computation may be of another meaning, as long as it succeeds
with the same values. -/
theorem memoize {field : Field} (f : LazyField kind field) {e : Entity kind} {w : kind.Wrapper}
    (hw : e.find caches = some w) {compute : Query ReturnTypes field.Value}
    {m : Meaning field.Sight} (hcompute : Answers world caches field.view compute m)
    (hm : ∀ b, m = .ok b ↔ f.meaning world e = .ok b) :
    Answers world caches field.view (Query.memoize ((kind.idOf w).cell field) compute) m := by
  intro s hs hgrows
  have hw' : e.find s.caches = some w := Entity.find_grows hw hgrows
  rw [Action.after, Query.memoize_apply]
  cases hcell : s.memo.get? ((kind.idOf w).cell field) with
  | some v =>
    -- A cell that is filled holds the meaning of the field.
    obtain ⟨b, hmeaning, hshows⟩ := hs.meaning_of_get? f hw' hcell
    rw [(hm b).mpr hmeaning]
    exact ⟨hs, .refl _, .ok hshows⟩
  | none =>
    obtain ⟨hsound, hlater, houtcome⟩ := hcompute s hs hgrows
    cases hrun : compute world.session s with
    | error e t =>
      rw [Action.after_of_error hrun] at hsound hlater
      rw [hrun] at houtcome
      cases houtcome with | error hshows =>
      exact ⟨hsound, hlater, .error hshows⟩
    | ok v t =>
      rw [Action.after_of_ok hrun] at hsound hlater
      rw [hrun] at houtcome
      cases houtcome with | @ok _ b _ hshows =>
      have hw'' : e.find t.caches = some w := Entity.find_grows hw' hlater
      have hmeaning : f.meaning world e = .ok b := (hm b).mp rfl
      have hat : e.At t.caches ⟨(kind.idOf w).index⟩ := Entity.at_of_find hw''
      have hkept := (t.fill_grows ((kind.idOf w).cell field) v).caches
      refine ⟨hsound.fill hat hmeaning hshows, hlater.trans hkept, .ok ?_⟩
      -- A cell that was filled in the meantime holds the same meaning.
      rw [SessionState.fill]
      split
      · rename_i earlier hfilled
        obtain ⟨b', hmeaning', hshows'⟩ := hsound.meaning_of_get? f hw'' hfilled
        rw [hmeaning] at hmeaning'
        cases hmeaning'
        exact hshows'
      · exact hshows

/-- A field is kept with its meaning, which is that of its computation. -/
theorem field {field : Field} (f : LazyField kind field) {e : Entity kind} {w : kind.Wrapper}
    (hw : e.find caches = some w) {compute : Query ReturnTypes field.Value}
    (hcompute : Answers world caches field.view compute (f.sight world e (kind.blank w))) :
    Answers world caches field.view (Query.memoize ((kind.idOf w).cell field) compute)
      (f.sight world e (kind.blank w)) := by
  intro s hs hgrows
  have hw' : e.find s.caches = some w := Entity.find_grows hw hgrows
  refine memoize f hw' (hcompute.grows hgrows) ?_ s hs (.refl _)
  intro b
  rw [LazyField.meaning, (hs.faithful.fits hw').portrait]
  exact Iff.rfl

end Answers

end SymbolGraph
