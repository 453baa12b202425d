import Bindings.Proofs.Scope
import Bindings.Proofs.Universe

/-!
This module contains the table that declarations can be put into one by one: a vector and the number
of each declaration under its identifier. Numbers have 32 bits. For fewer declarations than there
are numbers the table is the universe: it refuses the same declarations for the same reason, and
looking up an identifier and reading a declaration are inverse to each other.
-/

namespace Bindings

structure Table where
  decls : Array TypeDecl := #[]
  numbers : Std.HashMap String UInt32 := ∅

namespace Table

def size (table : Table) : Nat :=
  table.decls.size

def lookup (table : Table) (name : String) : Option UInt32 :=
  table.numbers[name]?

/--
The declaration of a number, which must not lead beyond the end.
-/
def get? (table : Table) (number : UInt32) : Option TypeDecl :=
  table.decls[number.toNat]?

def entries (table : Table) : List (UInt32 × TypeDecl) :=
  table.decls.toList.mapIdx fun position decl => (UInt32.ofNat position, decl)

/--
Adds a declaration unless its identifier is in the table. What is there under this identifier is
read without a check, so there is no outcome if its number leads beyond the end.
-/
def add (table : Table) (decl : TypeDecl) : Option (Except Fault Table) :=
  match table.lookup decl.id with
  | some number =>
    (table.get? number).map fun first =>
      .error (.duplicate ⟨decl.id, first.site number.toNat, decl.site table.size⟩)
  | none =>
    some (.ok
      { decls := table.decls.push decl
        numbers := table.numbers.insert decl.id (UInt32.ofNat table.size) })

def addAll (table : Table) : List TypeDecl → Option (Except Fault Table)
  | [] => some (.ok table)
  | decl :: decls =>
    match table.add decl with
    | some (.ok table') => table'.addAll decls
    | outcome => outcome

def ofDecls (decls : List TypeDecl) : Option (Except Fault Table) :=
  addAll {} decls

/--
A table holds some declarations: they are its vector, and its numbers lead from the identifiers to
them and to nothing else.
-/
structure Holds (table : Table) (decls : List TypeDecl) : Prop where
  toList_decls : table.decls.toList = decls
  lookup_iff : ∀ name number, table.lookup name = some number
    ↔ ∃ decl, decls[number.toNat]? = some decl ∧ decl.id = name

theorem holds_empty : ({} : Table).Holds [] where
  toList_decls := rfl
  lookup_iff name number := by simp [lookup]

theorem idClaims_append_cons (before : List TypeDecl) (decl : TypeDecl) (after : List TypeDecl) :
    Universe.idClaims (before ++ decl :: after)
      = Universe.idClaims before ++ (decl.id, decl.site before.length)
        :: after.mapIdx fun position later =>
          (later.id, later.site (position + 1 + before.length)) := by
  simp only [Universe.idClaims, List.mapIdx_append, List.mapIdx_cons, Nat.zero_add]

theorem getElem?_concat_eq_some_iff {elements : List α} {last element : α} {position : Nat} :
    (elements ++ [last])[position]? = some element
      ↔ elements[position]? = some element ∨ position = elements.length ∧ element = last := by
  grind

namespace Holds

variable {table : Table} {decls : List TypeDecl} (h : table.Holds decls)

include h

theorem size_eq : table.size = decls.length := by
  rw [size, ← h.toList_decls, Array.length_toList]

theorem get?_eq (number : UInt32) : table.get? number = decls[number.toNat]? := by
  rw [get?, ← h.toList_decls, Array.getElem?_toList]

theorem lookup_of_getElem? {position : Nat} {decl : TypeDecl} (hlt : decls.length < UInt32.size)
    (hdecl : decls[position]? = some decl) :
    table.lookup decl.id = some (UInt32.ofNat position) := by
  have hposition : position < decls.length := (List.getElem?_eq_some_iff.1 hdecl).1
  refine (h.lookup_iff _ _).2 ⟨decl, ?_, rfl⟩
  rwa [UInt32.toNat_ofNat_of_lt' (hposition.trans hlt)]

theorem lookup_eq_none_iff (hlt : decls.length < UInt32.size) {name : String} :
    table.lookup name = none ↔ ∀ decl ∈ decls, decl.id ≠ name := by
  constructor
  . intro hnone decl hmem hid
    obtain ⟨position, hdecl⟩ := List.getElem?_of_mem hmem
    rw [← hid, h.lookup_of_getElem? hlt hdecl] at hnone
    cases hnone
  . intro hfresh
    cases hlookup : table.lookup name with
    | none => rfl
    | some number =>
      obtain ⟨decl, hdecl, hid⟩ := (h.lookup_iff _ _).1 hlookup
      exact absurd hid (hfresh decl (List.mem_of_getElem? hdecl))

theorem nodup_ids (hlt : decls.length < UInt32.size) : (decls.map (·.id)).Nodup := by
  rw [List.Nodup, List.pairwise_map, List.pairwise_iff_getElem]
  intro i j hi hj hij heq
  have hfirst := h.lookup_of_getElem? hlt (List.getElem?_eq_getElem hi)
  have hsecond := h.lookup_of_getElem? hlt (List.getElem?_eq_getElem hj)
  rw [heq, hsecond] at hfirst
  have hnumbers : (UInt32.ofNat j).toNat = (UInt32.ofNat i).toNat :=
    congrArg UInt32.toNat (Option.some.inj hfirst)
  rw [UInt32.toNat_ofNat_of_lt' (hi.trans hlt), UInt32.toNat_ofNat_of_lt' (hj.trans hlt)]
    at hnumbers
  omega

theorem push (hlt : decls.length < UInt32.size) {decl : TypeDecl}
    (hfresh : ∀ other ∈ decls, other.id ≠ decl.id) :
    Holds
      { decls := table.decls.push decl
        numbers := table.numbers.insert decl.id (UInt32.ofNat table.size) }
      (decls ++ [decl]) where
  toList_decls := by rw [Array.toList_push, h.toList_decls]
  lookup_iff name number := by
    simp only [getElem?_concat_eq_some_iff]
    rw [lookup, Std.HashMap.getElem?_insert, h.size_eq]
    by_cases hname : decl.id = name
    . -- The new number is the only one, as no declaration before has the identifier.
      subst hname
      rw [if_pos (beq_self_eq_true _), Option.some.injEq]
      constructor
      . rintro rfl
        exact ⟨decl, Or.inr ⟨UInt32.toNat_ofNat_of_lt' hlt, rfl⟩, rfl⟩
      . rintro ⟨other, hother | ⟨hnumber, -⟩, hid⟩
        . exact absurd hid (hfresh other (List.mem_of_getElem? hother))
        . rw [← hnumber, UInt32.ofNat_toNat]
    . rw [if_neg (by simpa using hname)]
      have hbefore : table.numbers[name]? = some number
          ↔ ∃ other, decls[number.toNat]? = some other ∧ other.id = name :=
        h.lookup_iff name number
      rw [hbefore]
      constructor
      . rintro ⟨other, hother, hid⟩
        exact ⟨other, Or.inl hother, hid⟩
      . rintro ⟨other, hother | ⟨-, rfl⟩, hid⟩
        . exact ⟨other, hother, hid⟩
        . exact absurd hid hname

theorem add_cases (hlt : decls.length < UInt32.size) (decl : TypeDecl) :
    (∃ (position : Nat) (first : TypeDecl), decls[position]? = some first ∧ first.id = decl.id
        ∧ table.add decl
          = some (.error (.duplicate ⟨decl.id, first.site position, decl.site decls.length⟩)))
      ∨ ∃ table', table.add decl = some (.ok table') ∧ table'.Holds (decls ++ [decl]) := by
  cases hlookup : table.lookup decl.id with
  | some number =>
    obtain ⟨first, hfirst, hid⟩ := (h.lookup_iff _ _).1 hlookup
    refine Or.inl ⟨number.toNat, first, hfirst, hid, ?_⟩
    simp only [add, hlookup, h.get?_eq, hfirst, Option.map_some, h.size_eq]
  | none =>
    have hfresh := (h.lookup_eq_none_iff hlt).1 hlookup
    refine Or.inr ⟨_, ?_, h.push hlt hfresh⟩
    simp only [add, hlookup]

theorem addAll_cases (rest : List TypeDecl) (hlt : (decls ++ rest).length < UInt32.size) :
    (∃ duplicate : Duplicate, table.addAll rest = some (.error (.duplicate duplicate))
        ∧ duplicate.IsFirstIn (Universe.idClaims (decls ++ rest)))
      ∨ ∃ table', table.addAll rest = some (.ok table') ∧ table'.Holds (decls ++ rest) := by
  induction rest generalizing table decls with
  | nil =>
    rw [List.append_nil]
    exact Or.inr ⟨table, rfl, h⟩
  | cons decl rest ih =>
    have hdecls : decls.length < UInt32.size := by
      rw [List.length_append] at hlt
      omega
    rcases h.add_cases hdecls decl with ⟨position, first, hfirst, hid, hadd⟩ | ⟨table', hadd, hnext⟩
    . refine Or.inl ⟨_, by rw [addAll, hadd], Universe.idClaims decls, _,
        idClaims_append_cons decls decl rest, ?_, ?_⟩
      . obtain ⟨hposition, rfl⟩ := List.getElem?_eq_some_iff.1 hfirst
        rw [← hid]
        exact List.mem_mapIdx.2 ⟨position, hposition, rfl⟩
      . rw [Universe.map_fst_idClaims]
        exact h.nodup_ids hdecls
    . rw [addAll, hadd]
      rw [List.append_cons] at hlt ⊢
      exact ih hnext hlt

theorem entries_eq : table.entries
    = decls.mapIdx fun position decl => (UInt32.ofNat position, decl) := by
  rw [entries, h.toList_decls]

end Holds

/--
A table and a universe know the same: what one of them looks up, reads or lists is what the other
one does, up to the form of the numbers.
-/
structure Represents (table : Table) (u : Universe) : Prop where
  size_eq : table.size = u.size
  lookup_eq : ∀ name, (table.lookup name).map UInt32.toNat = (u.lookup name).map Fin.val
  get?_eq : ∀ id : u.Id, table.get? (UInt32.ofNat id) = some (u.get id)
  entries_eq : table.entries = u.ids.map fun id : u.Id => (UInt32.ofNat id, u.get id)

theorem Holds.represents {table : Table} {u : Universe} (h : table.Holds u.decls)
    (hlt : u.decls.length < UInt32.size) : table.Represents u where
  size_eq := h.size_eq
  lookup_eq name := by
    cases hlookup : u.lookup name with
    | some id =>
      have hdecl : u.decls[id.val]? = some (u.get id) := List.getElem?_eq_getElem id.isLt
      rw [← Universe.lookup_eq_some_iff.1 hlookup, h.lookup_of_getElem? hlt hdecl, Option.map_some,
        Option.map_some, UInt32.toNat_ofNat_of_lt' (id.isLt.trans hlt)]
    | none =>
      have hfresh : ∀ decl ∈ u.decls, decl.id ≠ name := by
        intro decl hmem
        obtain ⟨id, rfl⟩ := List.get_of_mem hmem
        exact Universe.lookup_eq_none_iff.1 hlookup id
      rw [(h.lookup_eq_none_iff hlt).2 hfresh]
      rfl
  get?_eq id := by
    rw [h.get?_eq, UInt32.toNat_ofNat_of_lt' (id.isLt.trans hlt)]
    exact List.getElem?_eq_getElem id.isLt
  entries_eq := by
    rw [h.entries_eq]
    apply List.ext_getElem <;> simp [Universe.ids, Universe.get]

section Construction

variable {decls : List TypeDecl} (hlt : decls.length < UInt32.size)

include hlt

theorem ofDecls_cases :
    (∃ duplicate : Duplicate, ofDecls decls = some (.error (.duplicate duplicate))
        ∧ Universe.ofDecls decls = .error (.duplicate duplicate))
      ∨ ∃ table, ofDecls decls = some (.ok table) ∧ table.Holds decls := by
  refine (holds_empty.addAll_cases decls hlt).imp_left ?_
  rintro ⟨duplicate, hadd, hfirst⟩
  exact ⟨duplicate, hadd, Universe.ofDecls_eq_error_iff.2 (checkScope_claimAll_of_isFirstIn hfirst)⟩

theorem holds_of_ofDecls {table : Table} (h : ofDecls decls = some (.ok table)) :
    table.Holds decls := by
  rcases ofDecls_cases hlt with ⟨_, hrefused, _⟩ | ⟨_, hbuilt, hholds⟩
  . rw [hrefused] at h
    cases h
  . rw [hbuilt] at h
    cases h
    exact hholds

theorem ofDecls_eq_error_iff {fault : Fault} :
    ofDecls decls = some (.error fault) ↔ Universe.ofDecls decls = .error fault := by
  rcases ofDecls_cases hlt with ⟨_, hrefused, huniverse⟩ | ⟨_, hbuilt, hholds⟩
  . rw [hrefused, huniverse, Option.some.injEq, Except.error.injEq, Except.error.injEq]
  . obtain ⟨_, huniverse⟩ := Universe.exists_ofDecls_eq_ok_iff.2 (hholds.nodup_ids hlt)
    simp [hbuilt, huniverse]

theorem exists_ofDecls_eq_ok_iff :
    (∃ table, ofDecls decls = some (.ok table)) ↔ (decls.map (·.id)).Nodup := by
  constructor
  . rintro ⟨table, htable⟩
    exact (holds_of_ofDecls hlt htable).nodup_ids hlt
  . intro hnodup
    obtain ⟨u, huniverse⟩ := Universe.exists_ofDecls_eq_ok_iff.2 hnodup
    rcases ofDecls_cases hlt with ⟨_, _, hrefused⟩ | ⟨table, hbuilt, _⟩
    . rw [hrefused] at huniverse
      cases huniverse
    . exact ⟨table, hbuilt⟩

end Construction

/--
What a table answers about the declarations that it was built from: looking up and reading are
inverse to each other, and no number that it gives leads beyond its end.
-/
structure Indexes (table : Table) (decls : List TypeDecl) : Prop where
  size_eq : table.size = decls.length
  get?_eq : ∀ number, table.get? number = decls[number.toNat]?
  lookup_eq_some_iff : ∀ name number, table.lookup name = some number
    ↔ number.toNat < table.size ∧ ∃ decl, table.get? number = some decl ∧ decl.id = name
  lookup_of_getElem? : ∀ position decl, decls[position]? = some decl →
    ∃ number, number.toNat = position ∧ table.lookup decl.id = some number
      ∧ table.get? number = some decl
  map_toNat_entries : table.entries.map (·.1.toNat) = List.range decls.length
  map_snd_entries : table.entries.map (·.2) = decls
  get?_of_mem_entries : ∀ entry ∈ table.entries, table.get? entry.1 = some entry.2

theorem Holds.indexes {table : Table} {decls : List TypeDecl} (h : table.Holds decls)
    (hlt : decls.length < UInt32.size) : table.Indexes decls where
  size_eq := h.size_eq
  get?_eq := h.get?_eq
  lookup_eq_some_iff name number := by
    rw [h.lookup_iff, h.get?_eq, h.size_eq]
    constructor
    . rintro ⟨decl, hdecl, hid⟩
      exact ⟨(List.getElem?_eq_some_iff.1 hdecl).1, decl, hdecl, hid⟩
    . exact And.right
  lookup_of_getElem? position decl hdecl := by
    have hposition : position < decls.length := (List.getElem?_eq_some_iff.1 hdecl).1
    have hnumber : (UInt32.ofNat position).toNat = position :=
      UInt32.toNat_ofNat_of_lt' (hposition.trans hlt)
    refine ⟨UInt32.ofNat position, hnumber, h.lookup_of_getElem? hlt hdecl, ?_⟩
    rw [h.get?_eq, hnumber, hdecl]
  map_toNat_entries := by
    rw [h.entries_eq]
    apply List.ext_getElem
    . simp
    . intro position hposition _
      have hdecls : position < decls.length := by simpa using hposition
      simpa using UInt32.toNat_ofNat_of_lt' (hdecls.trans hlt)
  map_snd_entries := by
    rw [h.entries_eq]
    apply List.ext_getElem <;> simp
  get?_of_mem_entries entry hentry := by
    rw [h.entries_eq] at hentry
    obtain ⟨position, hposition, rfl⟩ := List.mem_mapIdx.1 hentry
    rw [h.get?_eq, UInt32.toNat_ofNat_of_lt' (hposition.trans hlt)]
    exact List.getElem?_eq_getElem hposition

/--
For fewer declarations than there are numbers no read while the table is built leads beyond its end,
and the table is built exactly when the identifiers are pairwise distinct. A finished table indexes
its declarations, and it does so as the universe of these declarations does.
-/
theorem ofDecls_indexes {decls : List TypeDecl} (hlt : decls.length < UInt32.size) :
    (ofDecls decls).isSome
      ∧ ((∃ table, ofDecls decls = some (.ok table)) ↔ (decls.map (·.id)).Nodup)
      ∧ (∀ fault, ofDecls decls = some (.error fault) ↔ Universe.ofDecls decls = .error fault)
      ∧ (∀ table, ofDecls decls = some (.ok table) → table.Indexes decls)
      ∧ ((∃ u, Universe.ofDecls decls = .ok u) ↔ (decls.map (·.id)).Nodup)
      ∧ ∀ u, Universe.ofDecls decls = .ok u →
        u.decls = decls ∧ u.ids.map u.get = decls
          ∧ (∀ name id, u.lookup name = some id ↔ (u.get id).id = name)
          ∧ ∃ table, ofDecls decls = some (.ok table) ∧ table.Represents u := by
  have hfound := exists_ofDecls_eq_ok_iff hlt
  refine ⟨?_, hfound, fun _ => ofDecls_eq_error_iff hlt, ?_, Universe.exists_ofDecls_eq_ok_iff, ?_⟩
  . rcases ofDecls_cases hlt with ⟨_, hrefused, _⟩ | ⟨_, hbuilt, _⟩
    . rw [hrefused]
      rfl
    . rw [hbuilt]
      rfl
  . intro table htable
    exact (holds_of_ofDecls hlt htable).indexes hlt
  . intro u hu
    obtain rfl := Universe.ofDecls_eq_ok_iff.1 hu
    obtain ⟨table, htable⟩ := hfound.2 u.nodup_ids
    refine ⟨rfl, u.map_get_ids, fun _ _ => Universe.lookup_eq_some_iff, table, htable, ?_⟩
    exact (holds_of_ofDecls hlt htable).represents hlt

def named (id : String) : TypeDecl :=
  { id, body := .struct [] }

/--
A third declaration is put into the table, or it is refused for the first one.
-/
theorem ofDecls_indexes_named :
    (∃ table, ofDecls [named "Point", named "Other", named "Line"] = some (.ok table)
        ∧ table.lookup "Other" = some 1 ∧ table.get? 1 = some (named "Other")
        ∧ table.lookup "Label" = none)
      ∧ ofDecls [named "Point", named "Other", named "Point"]
        = some (.error (.duplicate
          ⟨"Point", .declaration .struct "Point" 0, .declaration .struct "Point" 2⟩)) := by
  constructor
  . have hsize : [named "Point", named "Other", named "Line"].length < UInt32.size := by decide
    obtain ⟨_, hfound, _, hindexes, _⟩ := ofDecls_indexes hsize
    obtain ⟨table, htable⟩ := hfound.2 (by decide)
    have h := hindexes table htable
    obtain ⟨number, hnumber, hlookup, hget⟩ := h.lookup_of_getElem? 1 (named "Other") rfl
    have hone : number = 1 := UInt32.toNat_inj.1 hnumber
    subst hone
    refine ⟨table, htable, hlookup, hget, ?_⟩
    cases hlabel : table.lookup "Label" with
    | none => rfl
    | some other =>
      obtain ⟨_, decl, hdecl, hid⟩ := (h.lookup_eq_some_iff _ _).1 hlabel
      rw [h.get?_eq] at hdecl
      have hmem := List.mem_of_getElem? hdecl
      simp only [List.mem_cons, List.not_mem_nil, or_false] at hmem
      rcases hmem with rfl | rfl | rfl <;> simp [named] at hid
  . have hsize : [named "Point", named "Other", named "Point"].length < UInt32.size := by decide
    obtain ⟨_, _, herror, _⟩ := ofDecls_indexes hsize
    exact (herror _).2 rfl

end Table

end Bindings
