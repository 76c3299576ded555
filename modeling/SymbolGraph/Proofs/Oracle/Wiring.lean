import SymbolGraph.Proofs.Oracle.Closed

/-!
# What wiring keeps up

A draft is built by adding files, top-level declarations and members. Each symbol then stands at most at
one place: in the list of its file, or in a list or slot of its container, which was added before it and
shares its file and its package. Lists are in the order in which things were added.
-/

namespace SymbolGraph

variable {key owner : SymbolKey} {symbol : SymbolRecord}

/-! ## What is wired into a symbol -/

namespace SymbolDetails

/-- The symbols in the lists and slots of a symbol. -/
def wired : SymbolDetails → List SymbolKey
  | classLike c => c.typeParameters ++ c.constructors ++ c.members
  | function f => f.typeParameters ++ f.valueParameters
  | property p => p.typeParameters ++ p.getter.toList ++ p.setter.toList
  | setter parameter => parameter.toList
  | getter _ | valueParameter _ | typeParameter _ => []

/-- The constructors of a class. -/
def constructors : SymbolDetails → List SymbolKey
  | classLike c => c.constructors
  | _ => []

variable {details member : SymbolDetails}

theorem isConstructor_iff :
    details.isConstructor = true ↔ ∃ f, details = .function f ∧ f.isConstructor = true := by
  cases details <;> simp [isConstructor]

theorem mem_wired_of_mem_constructors (h : key ∈ details.constructors) : key ∈ details.wired := by
  cases details with
  | classLike c => exact List.mem_append_left _ (List.mem_append_right _ h)
  | _ => cases h

/-- The new key is put at one place, and replaces what stood there if there is room for one only. -/
theorem count_wired_wire (details member : SymbolDetails) (key other : SymbolKey) :
    (details.wire member key).wired.count other ≤ (key :: details.wired).count other := by
  cases details with
  | classLike c =>
    cases member with
    | function f =>
      simp only [wire]
      split <;> simp [wired, List.count_append, List.count_cons] <;> omega
    | _ =>
      simp only [wire, wired, List.count_append, List.count_cons, List.count_nil]
      omega
  | function f =>
    cases member <;> simp [wire, wired, List.count_append, List.count_cons] <;> omega
  | property p =>
    cases member <;> simp [wire, wired, List.count_append, List.count_cons] <;> omega
  | setter parameter => cases member <;> simp [wire, wired, List.count_cons]
  | _ => simp [wire, wired]

theorem mem_wired_wire (h : key ∈ (details.wire member owner).wired) :
    key = owner ∨ key ∈ details.wired := by
  have hcount := count_wired_wire details member owner key
  have hpos := List.count_pos_iff.mpr h
  exact List.mem_cons.mp (List.count_pos_iff.mp (Nat.lt_of_lt_of_le hpos hcount))

theorem nodup_wired_wire (h : details.wired.Nodup) (hkey : key ∉ details.wired) :
    (details.wire member key).wired.Nodup := by
  have hnodup : (key :: details.wired).Nodup := List.nodup_cons.mpr ⟨hkey, h⟩
  refine List.nodup_iff_count_le_one.mpr fun other => ?_
  exact Nat.le_trans (count_wired_wire details member key other)
    (List.nodup_iff_count_le_one.mp hnodup other)

/-- Only a class gets constructors, and it gets nothing else as one. -/
theorem mem_constructors_wire : key ∈ (details.wire member owner).constructors ↔
    key ∈ details.constructors ∨
      key = owner ∧ details.sort = .classLike ∧ member.isConstructor = true := by
  cases details with
  | classLike c =>
    cases member with
    | function f => cases hf : f.isConstructor <;> simp [wire, isConstructor, constructors, sort, hf]
    | _ => simp [wire, isConstructor, constructors]
  | _ => cases member <;> simp [wire, constructors, sort]

@[simp] theorem sort_wire (details member : SymbolDetails) (key : SymbolKey) :
    (details.wire member key).sort = details.sort := by
  cases details <;> cases member <;> simp only [wire] <;> first | rfl | (split <;> rfl)

@[simp] theorem isConstructor_wire (details member : SymbolDetails) (key : SymbolKey) :
    (details.wire member key).isConstructor = details.isConstructor := by
  cases details <;> cases member <;> simp only [wire] <;> first | rfl | (split <;> rfl)

end SymbolDetails

/-! ## Adding a symbol -/

namespace SymbolRecord

/-- A symbol as the constructors of records make it. -/
structure Fresh (symbol : SymbolRecord) : Prop where
  container : symbol.container = none
  wired : symbol.details.wired = []

/-- What is recorded under a key after another symbol was added under a new key. -/
def welcome (symbol : SymbolRecord) (key : SymbolKey) (added : SymbolRecord) (new : SymbolKey) :
    SymbolRecord :=
  if added.container = some key then
    { symbol with details := symbol.details.wire added.details new }
  else symbol

variable (symbol : SymbolRecord) (key : SymbolKey) (added : SymbolRecord) (new : SymbolKey)

@[simp] theorem container_welcome : (symbol.welcome key added new).container = symbol.container := by
  rw [welcome]
  split <;> rfl

@[simp] theorem file_welcome : (symbol.welcome key added new).file = symbol.file := by
  rw [welcome]
  split <;> rfl

@[simp] theorem package_welcome : (symbol.welcome key added new).package = symbol.package := by
  rw [welcome]
  split <;> rfl

@[simp] theorem isConstructor_welcome :
    (symbol.welcome key added new).details.isConstructor = symbol.details.isConstructor := by
  rw [welcome]
  split <;> simp

@[simp] theorem sort_welcome :
    (symbol.welcome key added new).details.sort = symbol.details.sort := by
  rw [welcome]
  split <;> simp

variable {symbol key added new} {other : SymbolKey}

theorem mem_wired_welcome (h : other ∈ (symbol.welcome key added new).details.wired) :
    other = new ∧ added.container = some key ∨ other ∈ symbol.details.wired := by
  rw [welcome] at h
  split at h
  · rename_i hcontainer
    exact (SymbolDetails.mem_wired_wire h).imp (⟨·, hcontainer⟩) id
  · exact .inr h

theorem nodup_wired_welcome (h : symbol.details.wired.Nodup) (hnew : new ∉ symbol.details.wired) :
    (symbol.welcome key added new).details.wired.Nodup := by
  rw [welcome]
  split
  · exact SymbolDetails.nodup_wired_wire h hnew
  · exact h

theorem mem_constructors_welcome (hsort : symbol.details.sort = .classLike) :
    other ∈ (symbol.welcome key added new).details.constructors ↔
      other ∈ symbol.details.constructors ∨
        other = new ∧ added.container = some key ∧ added.details.isConstructor = true := by
  rw [welcome]
  split
  · rename_i hcontainer
    simp [SymbolDetails.mem_constructors_wire, hsort, hcontainer]
  · rename_i hcontainer
    simp [hcontainer]

end SymbolRecord

/-- A symbol was added after the others, and wired into its container if it has one. -/
structure Adds (before : Array SymbolRecord) (added : SymbolRecord) (after : Array SymbolRecord) :
    Prop where
  size : after.size = before.size + 1
  new : after[before.size]? = some added
  old : ∀ {key : SymbolKey} {symbol : SymbolRecord}, before[key.index]? = some symbol →
    after[key.index]? = some (symbol.welcome key added ⟨before.size⟩)

namespace Adds

variable {before after : Array SymbolRecord} {added : SymbolRecord}

theorem push (before : Array SymbolRecord) (h : added.container = none) :
    Adds before added (before.push added) where
  size := Array.size_push _
  new := Array.getElem?_push_size
  old {key symbol} hsymbol := by
    have hlt := (Array.getElem?_eq_some_iff.mp hsymbol).1
    rw [Array.getElem?_push_lt hlt, ← Array.getElem?_eq_getElem hlt, hsymbol, SymbolRecord.welcome, h]
    rfl

theorem modify (before : Array SymbolRecord) (h : added.container = some owner) :
    Adds before added ((before.modify owner.index fun o =>
      { o with details := o.details.wire added.details ⟨before.size⟩ }).push added) where
  size := by simp
  new := by rw [Array.getElem?_push, Array.size_modify, if_pos rfl]
  old {key symbol} hsymbol := by
    have hlt := (Array.getElem?_eq_some_iff.mp hsymbol).1
    rw [Array.getElem?_push, Array.size_modify, if_neg (Nat.ne_of_lt hlt), Array.getElem?_modify,
      SymbolRecord.welcome, h]
    by_cases heq : owner = key
    · rw [heq, if_pos rfl, if_pos rfl, hsymbol]
      rfl
    · rw [if_neg fun hindex => heq (SymbolKey.index_injective hindex), hsymbol,
        if_neg fun hkey => heq (Option.some.inj hkey)]

theorem cases (h : Adds before added after) (hsymbol : after[key.index]? = some symbol) :
    key = ⟨before.size⟩ ∧ symbol = added ∨
      ∃ old, before[key.index]? = some old ∧ symbol = old.welcome key added ⟨before.size⟩ := by
  by_cases hlt : key.index < before.size
  · have hold := h.old (Array.getElem?_eq_getElem hlt)
    cases hsymbol.symm.trans hold
    exact .inr ⟨_, Array.getElem?_eq_getElem hlt, rfl⟩
  · have hsize := (Array.getElem?_eq_some_iff.mp hsymbol).1
    have hindex : key.index = before.size := by
      have := h.size
      omega
    rw [hindex, h.new] at hsymbol
    cases hsymbol
    exact .inl ⟨SymbolKey.index_injective hindex, rfl⟩

/-- The lasting part of a record is that of a record from before, or of the new one. -/
theorem exists_iff (h : Adds before added after) {P : SymbolRecord → Prop}
    (hP : ∀ old key, P (old.welcome key added ⟨before.size⟩) ↔ P old) :
    (∃ symbol, after[key.index]? = some symbol ∧ P symbol) ↔
      (∃ symbol, before[key.index]? = some symbol ∧ P symbol) ∨ key = ⟨before.size⟩ ∧ P added := by
  constructor
  · rintro ⟨symbol, hsymbol, hsymbolP⟩
    obtain ⟨rfl, rfl⟩ | ⟨old, hold, rfl⟩ := h.cases hsymbol
    · exact .inr ⟨rfl, hsymbolP⟩
    · exact .inl ⟨old, hold, (hP old key).mp hsymbolP⟩
  · rintro (⟨old, hold, holdP⟩ | ⟨rfl, haddedP⟩)
    · exact ⟨_, h.old hold, (hP old key).mpr holdP⟩
    · exact ⟨added, h.new, haddedP⟩

end Adds

/-! ## Symbols in their containers -/

/-- Symbols are in agreement with what is wired into them. -/
structure Hosted (symbols : Array SymbolRecord) : Prop where
  container : ∀ {key owner : SymbolKey} {symbol : SymbolRecord}, symbols[key.index]? = some symbol →
    symbol.container = some owner → owner.index < key.index
  wired : ∀ {key : SymbolKey} (owner : SymbolKey) {symbol : SymbolRecord},
    symbols[owner.index]? = some symbol → key ∈ symbol.details.wired →
    ∃ member, symbols[key.index]? = some member ∧ member.container = some owner ∧
      member.file = symbol.file ∧ member.package = symbol.package
  nodup : ∀ (owner : SymbolKey) {symbol : SymbolRecord}, symbols[owner.index]? = some symbol →
    symbol.details.wired.Nodup
  constructors : ∀ (owner key : SymbolKey) {symbol : SymbolRecord},
    symbols[owner.index]? = some symbol → symbol.details.sort = .classLike →
    (key ∈ symbol.details.constructors ↔ ∃ member, symbols[key.index]? = some member ∧
      member.container = some owner ∧ member.details.isConstructor = true)

namespace Hosted

variable {before after : Array SymbolRecord} {added : SymbolRecord}

theorem index_lt (h : Hosted before) (hsymbol : before[owner.index]? = some symbol)
    (hkey : key ∈ symbol.details.wired) : key.index < before.size := by
  obtain ⟨_, hmember, _⟩ := h.wired owner hsymbol hkey
  exact (Array.getElem?_eq_some_iff.mp hmember).1

theorem new_not_mem (h : Hosted before) (hsymbol : before[owner.index]? = some symbol) :
    (⟨before.size⟩ : SymbolKey) ∉ symbol.details.wired :=
  fun hmem => Nat.lt_irrefl _ (h.index_lt hsymbol hmem)

/-- It is enough that a new symbol has nothing wired into it, and stands where its container stands. -/
theorem add (h : Hosted before) (hadds : Adds before added after) (hwired : added.details.wired = [])
    (howner : ∀ owner, added.container = some owner → ∃ symbol, before[owner.index]? = some symbol ∧
      added.file = symbol.file ∧ added.package = symbol.package) : Hosted after where
  container {key owner symbol} hsymbol hcontainer := by
    obtain ⟨rfl, rfl⟩ | ⟨old, hold, rfl⟩ := hadds.cases hsymbol
    · obtain ⟨_, hknown, _⟩ := howner owner hcontainer
      exact (Array.getElem?_eq_some_iff.mp hknown).1
    · exact h.container hold (by simpa using hcontainer)
  wired {key} owner {symbol} hsymbol hkey := by
    obtain ⟨rfl, rfl⟩ | ⟨old, hold, rfl⟩ := hadds.cases hsymbol
    · rw [hwired] at hkey
      cases hkey
    · -- A symbol that is wired here is the new one, or was wired here before.
      obtain ⟨rfl, hcontainer⟩ | hkey := SymbolRecord.mem_wired_welcome hkey
      · obtain ⟨_, hknown, hfile, hpackage⟩ := howner owner hcontainer
        cases hold.symm.trans hknown
        exact ⟨added, hadds.new, hcontainer, by simpa using hfile, by simpa using hpackage⟩
      · obtain ⟨member, hmember, hcontainer, hfile, hpackage⟩ := h.wired owner hold hkey
        exact ⟨_, hadds.old hmember, by simpa using hcontainer, by simpa using hfile,
          by simpa using hpackage⟩
  nodup owner {symbol} hsymbol := by
    obtain ⟨rfl, rfl⟩ | ⟨old, hold, rfl⟩ := hadds.cases hsymbol
    · rw [hwired]
      exact List.nodup_nil
    · exact SymbolRecord.nodup_wired_welcome (h.nodup owner hold) (h.new_not_mem hold)
  constructors owner key {symbol} hsymbol hsort := by
    rw [hadds.exists_iff (P := fun member => member.container = some owner ∧
      member.details.isConstructor = true) (by simp)]
    obtain ⟨rfl, rfl⟩ | ⟨old, hold, rfl⟩ := hadds.cases hsymbol
    · -- No symbol has the new one as its container.
      refine ⟨fun hkey => ?_, ?_⟩
      · have hmem := SymbolDetails.mem_wired_of_mem_constructors hkey
        rw [hwired] at hmem
        cases hmem
      · rintro (⟨member, hmember, hcontainer, -⟩ | ⟨-, hcontainer, -⟩)
        · have hlt := h.container hmember hcontainer
          have hknown := (Array.getElem?_eq_some_iff.mp hmember).1
          exact absurd hknown (Nat.not_lt_of_lt hlt)
        · obtain ⟨_, hknown, _⟩ := howner _ hcontainer
          exact absurd (Array.getElem?_eq_some_iff.mp hknown).1 (Nat.lt_irrefl _)
    · rw [SymbolRecord.sort_welcome] at hsort
      rw [SymbolRecord.mem_constructors_welcome hsort, h.constructors owner key hold hsort]

end Hosted

/-! ## Symbols in lists -/

/-- Each place lists symbols that stand there, in the order in which they were added. -/
structure Listed {π : Type} (lists : π → List SymbolKey) (Stands : π → SymbolRecord → Prop)
    (symbols : Array SymbolRecord) : Prop where
  stands : ∀ (place : π) {key : SymbolKey}, key ∈ lists place →
    ∃ symbol, symbols[key.index]? = some symbol ∧ Stands place symbol
  increasing : ∀ place, (lists place).Pairwise fun key next => key.index < next.index

theorem Listed.add {π : Type} {lists lists' : π → List SymbolKey} {Stands : π → SymbolRecord → Prop}
    {before after : Array SymbolRecord} {added : SymbolRecord} (h : Listed lists Stands before)
    (hadds : Adds before added after)
    (hlasting : ∀ place old key, Stands place (old.welcome key added ⟨before.size⟩) ↔ Stands place old)
    (hlists : ∀ place, lists' place = lists place ∨
      lists' place = lists place ++ [⟨before.size⟩] ∧ Stands place added) :
    Listed lists' Stands after where
  stands place {key} hkey := by
    rw [hadds.exists_iff (hlasting place)]
    obtain heq | ⟨heq, hstands⟩ := hlists place
    · exact .inl (h.stands place (heq ▸ hkey))
    · rw [heq, List.mem_append, List.mem_singleton] at hkey
      exact hkey.imp (h.stands place) (⟨·, hstands⟩)
  increasing place := by
    obtain heq | ⟨heq, -⟩ := hlists place <;> rw [heq]
    · exact h.increasing place
    · refine List.pairwise_append.mpr ⟨h.increasing place, List.pairwise_singleton _ _, ?_⟩
      intro key hkey new hnew
      obtain ⟨_, hsymbol, _⟩ := h.stands place hkey
      rw [List.mem_singleton.mp hnew]
      exact (Array.getElem?_eq_some_iff.mp hsymbol).1

namespace Draft

variable {d : Draft} {tops : List SymbolKey} {added : SymbolRecord}

/-- The declarations of a file; unknown files have none. -/
def declarationsOf (d : Draft) (file : FileKey) : List SymbolKey :=
  (d.files[file.index]?.map FileRecord.declarations).getD []

/-- The declarations of a package; unknown packages have none. -/
def inPackage (d : Draft) (package : String) : List SymbolKey := d.packages.getD package []

theorem declarationsOf_eq {file : FileKey} {record : FileRecord}
    (h : d.files[file.index]? = some record) : d.declarationsOf file = record.declarations := by
  rw [declarationsOf, h]
  rfl

theorem mem_inPackage {package : String} :
    key ∈ d.inPackage package ↔ ∃ keys, d.packages[package]? = some keys ∧ key ∈ keys := by
  rw [inPackage, Std.TreeMap.getD_eq_getD_getElem?]
  cases d.packages[package]? <;> simp

theorem inPackage_eq {package : String} {keys : List SymbolKey}
    (h : d.packages[package]? = some keys) : d.inPackage package = keys := by
  rw [inPackage, Std.TreeMap.getD_eq_getD_getElem?, h]
  rfl

theorem declarationsOf_addFile (d : Draft) (path package text : String) (file : FileKey) :
    (d.addFile path package text).2.declarationsOf file = d.declarationsOf file := by
  simp only [declarationsOf, addFile, Array.getElem?_push]
  split
  · rename_i heq
    rw [heq, Array.getElem?_eq_none (Nat.le_refl _)]
    rfl
  · rfl

theorem declarationsOf_addTopLevel (d : Draft) (file other : FileKey) (symbol : SymbolRecord) :
    (d.addTopLevel file symbol).2.declarationsOf other = d.declarationsOf other ∨
      (d.addTopLevel file symbol).2.declarationsOf other =
        d.declarationsOf other ++ [⟨d.symbols.size⟩] ∧ file = other := by
  simp only [declarationsOf, addTopLevel, addToPackage, addSymbol, Array.getElem?_modify]
  split
  · rename_i heq
    cases hfile : d.files[other.index]? with
    | none => exact .inl rfl
    | some record => exact .inr ⟨rfl, congrArg FileKey.mk heq⟩
  · exact .inl rfl

theorem inPackage_addToPackage (d : Draft) (package other : String) (key : SymbolKey) :
    (d.addToPackage package key).inPackage other =
      if package = other then d.inPackage other ++ [key] else d.inPackage other := by
  simp only [inPackage, addToPackage, Std.TreeMap.getD_insert, Std.LawfulEqCmp.compare_eq_iff_eq]
  split
  · rename_i heq
    rw [heq]
  · rfl

/-! ## Drafts that were built up -/

/-- A draft that was made by adding files and fresh symbols, and the keys of the top-level declarations
among them. -/
inductive Built : Draft → List SymbolKey → Prop
  | start : Built {} []
  | file {d : Draft} {tops : List SymbolKey} (path package text : String) : Built d tops →
    Built (d.addFile path package text).2 tops
  | symbol {d : Draft} {tops : List SymbolKey} {symbol : SymbolRecord} : Built d tops →
    symbol.Fresh → Built (d.addSymbol symbol).2 tops
  | topLevel {d : Draft} {tops : List SymbolKey} {symbol : SymbolRecord} (file : FileKey) :
    Built d tops → symbol.Fresh →
    Built (d.addTopLevel file symbol).2 (tops ++ [(d.addTopLevel file symbol).1])
  | library {d : Draft} {tops : List SymbolKey} {symbol : SymbolRecord} (package : String) :
    Built d tops → symbol.Fresh →
    Built (d.addLibrary package symbol).2 (tops ++ [(d.addLibrary package symbol).1])
  | member {d : Draft} {tops : List SymbolKey} {symbol : SymbolRecord} (owner : SymbolKey) :
    Built d tops → symbol.Fresh → Built (d.addMember owner symbol).2 tops

/-- What every step of building keeps up. -/
structure Consistent (d : Draft) (tops : List SymbolKey) : Prop where
  hosted : Hosted d.symbols
  filed : Listed d.declarationsOf
    (fun file symbol => symbol.container = none ∧ symbol.file = some file) d.symbols
  packaged : Listed d.inPackage (fun package symbol => symbol.package = package) d.symbols
  tops : ∀ key ∈ tops, ∃ symbol, d.symbols[key.index]? = some symbol ∧ key ∈ d.inPackage symbol.package

namespace Consistent

theorem start : Consistent {} [] where
  hosted := by constructor <;> intros <;> simp_all
  filed := ⟨fun _ _ hkey => by simp [declarationsOf] at hkey, fun _ => by simp [declarationsOf]⟩
  packaged := ⟨fun _ _ hkey => by simp [inPackage] at hkey, fun _ => by simp [inPackage]⟩
  tops := by simp

/-- A new symbol may be listed in its file and in its package. -/
theorem add (h : d.Consistent tops) {d' : Draft} (hadds : Adds d.symbols added d'.symbols)
    (hwired : added.details.wired = [])
    (howner : ∀ owner, added.container = some owner → ∃ symbol, d.symbols[owner.index]? = some symbol ∧
      added.file = symbol.file ∧ added.package = symbol.package)
    (hfiles : ∀ file, d'.declarationsOf file = d.declarationsOf file ∨
      d'.declarationsOf file = d.declarationsOf file ++ [⟨d.symbols.size⟩] ∧
        added.container = none ∧ added.file = some file)
    (hpackages : ∀ package, d'.inPackage package = d.inPackage package ∨
      d'.inPackage package = d.inPackage package ++ [⟨d.symbols.size⟩] ∧ added.package = package) :
    d'.Consistent tops where
  hosted := h.hosted.add hadds hwired howner
  filed := h.filed.add hadds (by simp) hfiles
  packaged := h.packaged.add hadds (by simp) hpackages
  tops key hkey := by
    obtain ⟨symbol, hsymbol, hmem⟩ := h.tops key hkey
    refine ⟨_, hadds.old hsymbol, ?_⟩
    rw [SymbolRecord.package_welcome]
    obtain heq | ⟨heq, -⟩ := hpackages symbol.package <;> rw [heq]
    · exact hmem
    · exact List.mem_append_left _ hmem

theorem concat (h : d.Consistent tops) (hsymbol : d.symbols[key.index]? = some symbol)
    (hkey : key ∈ d.inPackage symbol.package) : d.Consistent (tops ++ [key]) where
  hosted := h.hosted
  filed := h.filed
  packaged := h.packaged
  tops other hother := by
    rcases List.mem_append.mp hother with hother | hother
    · exact h.tops other hother
    · cases List.mem_singleton.mp hother
      exact ⟨symbol, hsymbol, hkey⟩

theorem addFile (h : d.Consistent tops) (path package text : String) :
    (d.addFile path package text).2.Consistent tops where
  hosted := h.hosted
  filed := by
    rw [funext (d.declarationsOf_addFile path package text)]
    exact h.filed
  packaged := h.packaged
  tops := h.tops

theorem addSymbol (h : d.Consistent tops) (hfresh : symbol.Fresh) :
    (d.addSymbol symbol).2.Consistent tops := by
  refine h.add (.push _ hfresh.container) hfresh.wired ?_ (fun _ => .inl rfl) fun _ => .inl rfl
  intro owner howner
  cases hfresh.container.symm.trans howner

/-- A top-level symbol is listed in its package, and perhaps in its file. -/
theorem addToPackage (h : d.Consistent tops) (added : SymbolRecord) {package : String}
    (hcontainer : added.container = none) (hwired : added.details.wired = [])
    (hpackage : added.package = package) {files : Array FileRecord}
    (hfiles : ∀ file, declarationsOf { d with files } file = d.declarationsOf file ∨
      declarationsOf { d with files } file = d.declarationsOf file ++ [⟨d.symbols.size⟩] ∧
        added.file = some file) :
    (Draft.addToPackage { d with symbols := d.symbols.push added, files } package
      ⟨d.symbols.size⟩).Consistent (tops ++ [⟨d.symbols.size⟩]) := by
  have hadds := Adds.push d.symbols hcontainer
  refine (h.add hadds hwired ?_ ?_ ?_).concat hadds.new ?_
  · intro owner howner
    cases hcontainer.symm.trans howner
  · exact fun file => (hfiles file).imp id fun ⟨heq, hfile⟩ => ⟨heq, hcontainer, hfile⟩
  · intro other
    rw [inPackage_addToPackage]
    split
    · rename_i heq
      exact .inr ⟨rfl, hpackage.trans heq⟩
    · exact .inl rfl
  · rw [inPackage_addToPackage, if_pos hpackage.symm]
    exact List.mem_append_right _ (List.mem_singleton_self _)

theorem addTopLevel (h : d.Consistent tops) (file : FileKey) (hfresh : symbol.Fresh) :
    (d.addTopLevel file symbol).2.Consistent (tops ++ [(d.addTopLevel file symbol).1]) := by
  refine h.addToPackage
    { symbol with file := some file, container := none, kind := .topLevel, package := _ }
    rfl hfresh.wired rfl fun other => ?_
  exact (d.declarationsOf_addTopLevel file other symbol).imp id fun ⟨heq, hfile⟩ =>
    ⟨heq, congrArg some hfile⟩

theorem addLibrary (h : d.Consistent tops) (package : String) (hfresh : symbol.Fresh) :
    (d.addLibrary package symbol).2.Consistent (tops ++ [(d.addLibrary package symbol).1]) :=
  h.addToPackage
    { symbol with file := none, container := none, kind := .topLevel, package }
    rfl hfresh.wired rfl fun _ => .inl rfl

theorem addMember (h : d.Consistent tops) (owner : SymbolKey) (hfresh : symbol.Fresh) :
    (d.addMember owner symbol).2.Consistent tops := by
  rw [Draft.addMember]
  split
  · exact h.addSymbol hfresh
  · rename_i ownerSymbol howner
    refine h.add (.modify d.symbols rfl) hfresh.wired ?_ (fun _ => .inl rfl) fun _ => .inl rfl
    rintro _ ⟨⟩
    exact ⟨ownerSymbol, howner, rfl, rfl⟩

end Consistent

theorem Built.consistent (h : d.Built tops) : d.Consistent tops := by
  induction h with
  | start => exact .start
  | file path package text _ ih => exact ih.addFile path package text
  | symbol _ hfresh ih => exact ih.addSymbol hfresh
  | topLevel file _ hfresh ih => exact ih.addTopLevel file hfresh
  | library package _ hfresh ih => exact ih.addLibrary package hfresh
  | member owner _ hfresh ih => exact ih.addMember owner hfresh

/-! ## What a built draft is like -/

/-- Lists that stand at different places have no element in common, if each element tells its place. -/
theorem nodup_flatMap_of_place {α β : Type} {l : List α} {f : α → List β} {P : β → Nat → Prop}
    (hunique : ∀ {b i j}, P b i → P b j → i = j)
    (hnodup : ∀ {i : Nat} {a}, l[i]? = some a → (f a).Nodup)
    (hplace : ∀ {i : Nat} {a b}, l[i]? = some a → b ∈ f a → P b i) : (l.flatMap f).Nodup := by
  refine List.nodup_flatMap.mpr ⟨fun a ha => ?_, List.pairwise_iff_getElem.mpr ?_⟩
  · obtain ⟨i, hi⟩ := List.getElem?_of_mem ha
    exact hnodup hi
  · intro i j hi hj hlt b hb hb'
    have heq := hunique (hplace (List.getElem?_eq_getElem hi) hb)
      (hplace (List.getElem?_eq_getElem hj) hb')
    exact Nat.ne_of_lt hlt heq

namespace Consistent

/-- All lists of files and symbols, one after the other. -/
theorem nodup (h : d.Consistent tops) :
    (d.files.toList.flatMap FileRecord.declarations ++
      d.symbols.toList.flatMap (·.details.wired)).Nodup := by
  have hfile {i : Nat} {record : FileRecord} (hrecord : d.files.toList[i]? = some record) :
      d.declarationsOf ⟨i⟩ = record.declarations :=
    @declarationsOf_eq d ⟨i⟩ _ (Array.getElem?_toList.symm.trans hrecord)
  have hfiled {i : Nat} {record : FileRecord} {key : SymbolKey}
      (hrecord : d.files.toList[i]? = some record) (hkey : key ∈ record.declarations) :
      ∃ symbol, d.symbols[key.index]? = some symbol ∧ symbol.container = none ∧
        symbol.file = some ⟨i⟩ :=
    h.filed.stands ⟨i⟩ ((hfile hrecord).symm ▸ hkey)
  have hwired {i : Nat} {record : SymbolRecord} {key : SymbolKey}
      (hrecord : d.symbols.toList[i]? = some record) (hkey : key ∈ record.details.wired) :
      ∃ symbol, d.symbols[key.index]? = some symbol ∧ symbol.container = some ⟨i⟩ := by
    rw [Array.getElem?_toList] at hrecord
    obtain ⟨symbol, hsymbol, hcontainer, _⟩ := h.hosted.wired ⟨i⟩ hrecord hkey
    exact ⟨symbol, hsymbol, hcontainer⟩
  refine List.nodup_append.mpr ⟨?_, ?_, ?_⟩
  · -- A declaration has one file, and its list is increasing.
    refine nodup_flatMap_of_place (P := fun key i =>
      ∃ symbol, d.symbols[key.index]? = some symbol ∧ symbol.container = none ∧
        symbol.file = some ⟨i⟩) ?_ ?_ hfiled
    · rintro key i j ⟨symbol, hsymbol, _, hi⟩ ⟨symbol', hsymbol', _, hj⟩
      cases hsymbol.symm.trans hsymbol'
      cases hi.symm.trans hj
      rfl
    · intro i record hrecord
      rw [← hfile hrecord]
      exact (h.filed.increasing ⟨i⟩).imp fun hlt heq => Nat.ne_of_lt hlt (congrArg _ heq)
  · -- A member has one container.
    refine nodup_flatMap_of_place (P := fun key i =>
      ∃ symbol, d.symbols[key.index]? = some symbol ∧ symbol.container = some ⟨i⟩) ?_ ?_ hwired
    · rintro key i j ⟨symbol, hsymbol, hi⟩ ⟨symbol', hsymbol', hj⟩
      cases hsymbol.symm.trans hsymbol'
      cases hi.symm.trans hj
      rfl
    · intro i record hrecord
      rw [Array.getElem?_toList] at hrecord
      exact h.hosted.nodup ⟨i⟩ hrecord
  · -- What is listed in a file has no container.
    rintro key hfile' _ hsymbol' rfl
    obtain ⟨record, hrecord, hkey⟩ := List.mem_flatMap.mp hfile'
    obtain ⟨i, hi⟩ := List.getElem?_of_mem hrecord
    obtain ⟨symbol, hsymbol, hnone, _⟩ := hfiled hi hkey
    obtain ⟨owner, howner, hkey⟩ := List.mem_flatMap.mp hsymbol'
    obtain ⟨j, hj⟩ := List.getElem?_of_mem howner
    obtain ⟨symbol', hsymbol', hsome⟩ := hwired hj hkey
    cases hsymbol.symm.trans hsymbol'
    cases hnone.symm.trans hsome

end Consistent

/-- How the lists and the symbols of a draft go together. -/
structure WellWired (d : Draft) (tops : List SymbolKey) : Prop where
  /-- A member was added after its container, and stands where the container stands. -/
  members : ∀ (owner key : SymbolKey) (symbol : SymbolRecord), d.symbols[owner.index]? = some symbol →
    key ∈ symbol.details.wired → ∃ member, d.symbols[key.index]? = some member ∧
      member.container = some owner ∧ owner.index < key.index ∧ member.file = symbol.file ∧
      member.package = symbol.package
  once : (d.files.toList.flatMap FileRecord.declarations ++
    d.symbols.toList.flatMap (·.details.wired)).Nodup
  constructors : ∀ (owner key : SymbolKey) (symbol : SymbolRecord) (details : ClassDetails),
    d.symbols[owner.index]? = some symbol → symbol.details = .classLike details →
    (key ∈ details.constructors ↔ ∃ member f, d.symbols[key.index]? = some member ∧
      member.container = some owner ∧ member.details = .function f ∧ f.isConstructor = true)
  declarations : ∀ (file : FileKey) (record : FileRecord), d.files[file.index]? = some record →
    record.declarations.Pairwise fun key next => key.index < next.index
  packages : ∀ (package : String) (keys : List SymbolKey), d.packages[package]? = some keys →
    keys.Pairwise fun key next => key.index < next.index
  /-- A top-level declaration is listed in its package, and in no other. -/
  topLevel : ∀ key ∈ tops, ∃ symbol, d.symbols[key.index]? = some symbol ∧
    ∀ package : String, (∃ keys, d.packages[package]? = some keys ∧ key ∈ keys) ↔
      package = symbol.package

theorem Built.wellWired (h : d.Built tops) : d.WellWired tops where
  members owner key symbol hsymbol hkey := by
    obtain ⟨member, hmember, hcontainer, hplace⟩ := h.consistent.hosted.wired owner hsymbol hkey
    exact ⟨member, hmember, hcontainer, h.consistent.hosted.container hmember hcontainer, hplace⟩
  once := h.consistent.nodup
  constructors owner key symbol details hsymbol hdetails := by
    have hconstructors := h.consistent.hosted.constructors owner key hsymbol (by rw [hdetails]; rfl)
    rw [hdetails] at hconstructors
    refine hconstructors.trans (exists_congr fun member => ?_)
    rw [SymbolDetails.isConstructor_iff]
    simp
  declarations file record hrecord := by
    rw [← declarationsOf_eq hrecord]
    exact h.consistent.filed.increasing file
  packages package keys hkeys := by
    rw [← inPackage_eq hkeys]
    exact h.consistent.packaged.increasing package
  topLevel key hkey := by
    obtain ⟨symbol, hsymbol, hmem⟩ := h.consistent.tops key hkey
    refine ⟨symbol, hsymbol, fun package => mem_inPackage.symm.trans ⟨fun hpackage => ?_, ?_⟩⟩
    · obtain ⟨symbol', hsymbol', heq⟩ := h.consistent.packaged.stands package hpackage
      cases hsymbol.symm.trans hsymbol'
      exact heq.symm
    · rintro rfl
      exact hmem

/-- A class with a constructor that takes a parameter and a property whose getter was replaced, a function
of another package, and a member of a class that does not exist. -/
def box : Draft :=
  let d := (({} : Draft).addFile "Box.kt" "boxes" "").2
  let d := (d.addTopLevel ⟨0⟩ (.ofClass "Box" .plainClass)).2
  let d := (d.addMember ⟨0⟩ .constructor).2
  let d := (d.addMember ⟨1⟩ (.ofValueParameter "size" ⟨0⟩)).2
  let d := (d.addMember ⟨0⟩ (.ofProperty "size" ⟨0⟩)).2
  let d := (d.addMember ⟨3⟩ (.ofGetter ⟨0⟩)).2
  let d := (d.addMember ⟨3⟩ (.ofGetter ⟨0⟩)).2
  let d := (d.addLibrary "kotlin" (.ofFunction "also")).2
  (d.addMember ⟨9⟩ (.ofFunction "lost")).2

theorem box_wellWired : box.WellWired [⟨0⟩, ⟨6⟩] ∧
    box.symbols.toList.map (fun symbol => symbol.details.wired.map SymbolKey.index) =
      [[1, 3], [2], [], [5], [], [], [], []] := by
  refine ⟨Built.wellWired ?_, by decide⟩
  refine .member ⟨9⟩ (.library "kotlin" (.member ⟨3⟩ (.member ⟨3⟩ (.member ⟨0⟩ (.member ⟨1⟩
    (.member ⟨0⟩ (.topLevel ⟨0⟩ (.file "Box.kt" "boxes" "" .start) ?_) ?_) ?_) ?_) ?_) ?_) ?_) ?_ <;>
    exact ⟨rfl, rfl⟩

end Draft

end SymbolGraph
