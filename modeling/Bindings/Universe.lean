import Bindings.Declaration
import Bindings.Scope

/-!
This module contains universes: declarations of pairwise distinct identifiers, in order. Looking an
identifier up and reading the identifier of a declaration are inverse to each other.
-/

namespace Bindings

structure Universe where
  decls : List TypeDecl
  nodup_ids : (decls.map (·.id)).Nodup

namespace Universe

abbrev Id (u : Universe) := Fin u.decls.length

def size (u : Universe) : Nat :=
  u.decls.length

def get (u : Universe) (id : u.Id) : TypeDecl :=
  u.decls.get id

def ids (u : Universe) : List u.Id :=
  List.finRange u.decls.length

def lookup (u : Universe) (name : String) : Option u.Id :=
  u.decls.findFinIdx? fun decl => decl.id == name

def site (u : Universe) (id : u.Id) : Site :=
  (u.get id).site id

def references (u : Universe) (id : u.Id) : List Reference :=
  (u.get id).references id

def idClaims (decls : List TypeDecl) : List (String × Site) :=
  decls.mapIdx fun position decl => (decl.id, decl.site position)

theorem map_fst_idClaims (decls : List TypeDecl) :
    (idClaims decls).map (·.1) = decls.map (·.id) := by
  apply List.ext_getElem <;> simp [idClaims]

/--
The universe of some declarations, unless two of them have one identifier.
-/
def ofDecls (decls : List TypeDecl) : Except Fault Universe :=
  match h : checkScope (claimAll (idClaims decls)) with
  | .error fault => .error fault
  | .ok () => .ok ⟨decls, by rw [← map_fst_idClaims]; exact checkScope_claimAll_eq_ok_iff.1 h⟩

end Universe

end Bindings
