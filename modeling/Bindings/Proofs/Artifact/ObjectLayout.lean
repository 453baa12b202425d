import Bindings.Artifact.Block

/-!
This module contains that a struct and a variant with the same fields show the same object type. The
block that declares a struct has a line for each property. Without its line breaks it is the text
that the fields have inside a variant.
-/

namespace Bindings.Artifact

open Text

def memberOf? (margin line : String) : Option String :=
  let text := String.ofList (line.toList.drop margin.toList.length).dropLast
  if margin ++ text ++ ";" = line then some text else none

def membersOf? (margin : String) (block : List String) : Option (List String) :=
  block.tail.dropLast.mapM (memberOf? margin)

/--
The lines of a block as one line: every line break becomes a space, the margins go, and so does the
semicolon of the last member.
-/
def collapse? (margin : String) (block : List String) : Option String := do
  let first ← block.head?
  let members ← membersOf? margin block
  match block.tail.getLast? with
  | none => return first
  | some last => return first ++ " " ++ joinWith "; " members ++ " " ++ last

variable (margin : String)

theorem memberOf?_line (text : String) : memberOf? margin (margin ++ text ++ ";") = some text := by
  have htext : String.ofList
      ((margin ++ text ++ ";").toList.drop margin.toList.length).dropLast = text := by
    rw [String.append_assoc, String.toList_append, List.drop_left, String.toList_append,
      show ";".toList = [';'] from rfl, List.dropLast_concat, String.ofList_toList]
  unfold memberOf?
  dsimp only
  rw [htext, if_pos rfl]

theorem membersOf?_block (first last : String) (members : List String) :
    membersOf? margin (first :: members.map (fun text => margin ++ text ++ ";") ++ [last])
      = some members := by
  unfold membersOf?
  rw [List.cons_append, List.tail_cons, List.dropLast_concat]
  induction members with
  | nil => rfl
  | cons text members ih =>
    rw [List.map_cons, List.mapM_cons, memberOf?_line, ih]
    rfl

theorem collapse?_block (first last : String) (members : List String) :
    collapse? margin (first :: members.map (fun text => margin ++ text ++ ";") ++ [last])
      = some (first ++ " " ++ joinWith "; " members ++ " " ++ last) := by
  unfold collapse?
  rw [membersOf?_block, List.cons_append, List.head?_cons, List.tail_cons, List.getLast?_concat]
  rfl

theorem collapse?_interface (head : String) (members : List String) :
    collapse? margin ((head ++ " \x7b") :: members.map (fun text => margin ++ text ++ ";")
        ++ ["\x7d"])
      = some (head ++ " " ++ braced (joinWith "; " members)) := by
  rw [collapse?_block]
  unfold braced
  simp only [String.append_assoc]
  rfl

theorem collapse?_intersection (head : String) (members : List String) {parts : List String}
    (h : parts ≠ []) :
    collapse? margin ((head ++ " = \x7b") :: members.map (fun text => margin ++ text ++ ";")
        ++ ["\x7d & " ++ joinWith " & " parts ++ ";"])
      = some (head ++ " = " ++ joinWith " & " (braced (joinWith "; " members) :: parts)
        ++ ";") := by
  rw [collapse?_block, joinWith_cons h]
  unfold braced
  simp only [String.append_assoc]
  rfl

section Struct

variable (nameOf : String → String) (o : Options) {fields : List Field}

theorem flatMap_member_eq_map (hdocs : ∀ field ∈ fields, field.doc = none) :
    (fields.flatMap fun field =>
        docLines o.margin field.doc ++ [o.margin ++ propertyText nameOf o field ++ ";"])
      = (fields.map (propertyText nameOf o)).map fun text => o.margin ++ text ++ ";" := by
  induction fields with
  | nil => rfl
  | cons field fields ih =>
    rw [List.forall_mem_cons] at hdocs
    rw [List.flatMap_cons, ih hdocs.2, hdocs.1]
    rfl

theorem any_flatten_eq (fields : List Field) :
    fields.any (·.flatten) = !(flattenedParts nameOf o fields).isEmpty := by
  rw [flattenedParts, List.isEmpty_map, Bool.eq_iff_iff, Bool.not_eq_true',
    List.isEmpty_eq_false_iff, Ne, List.filter_eq_nil_iff, List.any_eq_true]
  simp

theorem collapse?_structLines (name : String) (hdocs : ∀ field ∈ fields, field.doc = none) :
    membersOf? o.margin (structLines nameOf o name fields) = some (properties nameOf o fields)
      ∧ collapse? o.margin (structLines nameOf o name fields) = some
        (if fields.any (·.flatten) then
          o.declarator ++ "type " ++ name ++ " = " ++ objectText nameOf o [] fields ++ ";"
        else
          o.declarator ++ "interface " ++ name ++ " " ++ objectText nameOf o [] fields) := by
  have hmembers := flatMap_member_eq_map nameOf o
    fun field (hmem : field ∈ fields.filter (!·.flatten)) => hdocs field (List.mem_filter.1 hmem).1
  have hkept : (fields.filter (!·.flatten)).isEmpty = (properties nameOf o fields).isEmpty := by
    rw [properties, List.isEmpty_map]
  unfold structLines objectText
  dsimp only
  rw [hmembers, ← properties, List.nil_append, hkept, any_flatten_eq nameOf o]
  generalize properties nameOf o fields = properties
  generalize flattenedParts nameOf o fields = parts
  -- Properties make a block, flattened fields make an intersection, and each can be missing.
  cases properties with
  | nil =>
    cases parts with
    | nil => exact ⟨rfl, rfl⟩
    | cons part parts => exact ⟨rfl, rfl⟩
  | cons property properties =>
    cases parts with
    | nil => exact ⟨membersOf?_block _ _ _ _, collapse?_interface _ _ _⟩
    | cons part parts =>
      exact ⟨membersOf?_block _ _ _ _,
        collapse?_intersection _ _ _ (List.cons_ne_nil part parts)⟩

/--
The declaration of a struct without documented fields, without its line breaks, shows the object
type that its fields have elsewhere. Each property has a line of its own in it.
-/
theorem collapse?_typeLines {decl : TypeDecl} (hbody : decl.body = .struct fields)
    (hdocs : ∀ field ∈ fields, field.doc = none) :
    ∃ block, typeLines nameOf o decl = docLines "" decl.doc ++ block
      ∧ membersOf? o.margin block = some (properties nameOf o fields)
      ∧ collapse? o.margin block = some
        (if fields.any (·.flatten) then
          o.declarator ++ "type " ++ decl.declaredName ++ " = " ++ objectText nameOf o [] fields
            ++ ";"
        else
          o.declarator ++ "interface " ++ decl.declaredName ++ " "
            ++ objectText nameOf o [] fields) := by
  refine ⟨structLines nameOf o decl.declaredName fields, ?_, collapse?_structLines nameOf o _ hdocs⟩
  unfold typeLines
  rw [hbody]

end Struct

def article : TypeDecl where
  id := "Article"
  doc := some "A text."
  body := .struct
    [{ name := "base", type := .option (.named "Base"), flatten := true },
      { name := "content-type", type := .scalar .string },
      { name := "notes", type := .option (.vector (.option (.scalar .string))) },
      { name := "extra", type := .named "Extra", flatten := true }]

def narrow : Options where
  exporting := false
  indent := 2
  optionalFields := true

theorem collapse?_article :
    ∃ block, typeLines id narrow article = ["/**", " * A text.", " */"] ++ block
      ∧ membersOf? "  " block
        = some ["\"content-type\": string", "notes?: (string | null)[]"]
      ∧ collapse? "  " block = some ("declare type Article = "
        ++ "\x7b \"content-type\": string; notes?: (string | null)[] \x7d & (Base | \x7b\x7d) & "
        ++ "Extra;") := by
  obtain ⟨block, hlines, hmembers, hcollapse⟩ :=
    collapse?_typeLines id narrow (rfl : article.body = .struct _) (by decide)
  exact ⟨block, hlines, hmembers, hcollapse⟩

end Bindings.Artifact
