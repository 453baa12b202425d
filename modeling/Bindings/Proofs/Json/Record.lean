import Bindings.Proofs.Json.Decoder

/-!
This module contains that records are restored from their members in order, and what is known of a
record that was found in members of any order.
-/

namespace Bindings.Json

open Decoder (Slot)

variable {budget : Nat}

inductive Inscribed {α : Type} (budget : Nat) :
    List (Slot α) → List (String × Json) → α → α → Prop
  | nil (a : α) : Inscribed budget [] [] a a
  | cons {slot : Slot α} {json : Json} {set : α → α} {slots : List (Slot α)}
    {members : List (String × Json)} {a b : α} (hset : Restores budget slot.decode json set)
    (hrest : Inscribed budget slots members (set a) b) :
    Inscribed budget (slot :: slots) ((slot.name, json) :: members) a b

theorem Inscribed.set {decode : Decoder β} {encode : β → Json} (h : Lawful budget decode encode)
    (value : β) {name : String} {mandatory : Bool} {set : β → α → α} {slots : List (Slot α)}
    {members : List (String × Json)} {a b : α}
    (hrest : Inscribed budget slots members (set value a) b) :
    Inscribed budget (⟨name, mandatory, fun r => set <$> decode r⟩ :: slots)
      ((name, encode value) :: members) a b :=
  .cons ((h.restores value).map set) hrest

theorem find?_slot {done todo : List (Slot α)} {slot : Slot α}
    (hnew : slot.name ∉ done.map (·.name)) :
    (done ++ slot :: todo).find? (fun other => other.name == slot.name) = some slot := by
  have hdone : done.find? (fun other => other.name == slot.name) = none := by
    rw [List.find?_eq_none]
    intro other hmem heq
    rw [beq_iff_eq] at heq
    exact hnew (List.mem_map.2 ⟨other, hmem, heq⟩)
  simp [List.find?_append, hdone]

def seenNames (slots : List (Slot α)) : List String :=
  (slots.map (·.name)).reverse

theorem mem_seenNames {slots : List (Slot α)} {name : String} :
    name ∈ seenNames slots ↔ name ∈ slots.map (·.name) :=
  List.mem_reverse

theorem seenNames_append (slots : List (Slot α)) (slot : Slot α) :
    seenNames (slots ++ [slot]) = slot.name :: seenNames slots := by
  simp [seenNames]

theorem ofMembers_nil (slots : List (Slot α)) (a : α) :
    Decoder.ofMembers slots true (seenNames slots) a [] = .ok a := by
  have hnone : slots.find? (fun slot => slot.mandatory && !(seenNames slots).contains slot.name)
      = none := by
    rw [List.find?_eq_none]
    intro slot hmem
    simp [mem_seenNames.2 (List.mem_map_of_mem hmem)]
  simp only [Decoder.ofMembers, hnone]
  rfl

theorem ofMembers_cons {done todo : List (Slot α)} {slot : Slot α}
    (hnew : slot.name ∉ done.map (·.name)) (closed : Bool) (a : α) (r : Reading)
    (members : List (Option String × Reading)) :
    Decoder.ofMembers (done ++ slot :: todo) closed (seenNames done) a
        ((some slot.name, r) :: members)
      = slot.decode r >>= fun set =>
        Decoder.ofMembers (done ++ slot :: todo) closed (slot.name :: seenNames done) (set a)
          members := by
  have hseen : slot.name ∉ seenNames done := fun hmem => hnew (mem_seenNames.1 hmem)
  rw [Decoder.ofMembers, find?_slot hnew]
  simp [hseen]

theorem Inscribed.ofMembers {todo : List (Slot α)} {members : List (String × Json)} {a b : α}
    (h : Inscribed budget todo members a b) (done : List (Slot α))
    (hnodup : ((done ++ todo).map (·.name)).Nodup) :
    Decoder.ofMembers (done ++ todo) true (seenNames done) a (reading.ofMembers members)
      = if nesting.ofMembers members ≤ budget then .ok b else .error .unreadable := by
  induction h generalizing done with
  | nil a =>
    rw [reading.ofMembers, List.append_nil, ofMembers_nil]
    simp [nesting.ofMembers]
  | @cons slot json set slots members a b hset hrest ih =>
    have hnew : slot.name ∉ done.map (·.name) := by
      rw [List.map_append, List.nodup_append] at hnodup
      exact fun hmem => hnodup.2.2 _ hmem _ List.mem_cons_self rfl
    -- The slot is one of those that are done when the rest is read.
    rw [List.append_cons] at hnodup
    have hrest := ih _ hnodup
    rw [← List.append_cons, seenNames_append] at hrest
    rw [reading.ofMembers, ofMembers_cons hnew, nesting.ofMembers]
    simp only [Nat.max_le]
    by_cases hle : json.nesting ≤ budget
    . rw [hset.eq_ok hle]
      simp only [hle, true_and]
      exact hrest
    . rw [hset.eq_error (by omega)]
      simp only [hle, false_and]
      rfl

theorem Inscribed.restores {slots : List (Slot α)} {members : List (String × Json)} {blank a : α}
    (h : Inscribed (budget - 1) slots members blank a) (hnodup : (slots.map (·.name)).Nodup)
    (name : String) :
    Restores budget (Decoder.record name budget blank slots) (.object members) a := by
  have hmembers := h.ofMembers [] hnodup
  constructor
  . intro hle
    rw [nesting] at hle
    rw [reading, Decoder.record, if_neg (by omega)]
    exact hmembers.trans (if_pos (by omega))
  . intro hlt
    rw [nesting] at hlt
    rw [reading, Decoder.record]
    split
    . rfl
    . exact hmembers.trans (if_neg (by omega))

/--
Every slot keeps a property of a record, and the giver, if there is one, gives it to the record.
-/
def Settles (giver : Option String) (P : α → Prop) (slots : List (Slot α)) : Prop :=
  ∀ slot ∈ slots, ∀ {r : Reading} {set : α → α} {a : α}, slot.decode r = .ok set →
    some slot.name = giver ∨ P a → P (set a)

namespace Settles

variable {giver : Option String} {P : α → Prop} {name : String} {mandatory : Bool}
  {decode : Decoder β} {encode : β → Json} {set : β → α → α} {slots : List (Slot α)}

theorem nil : Settles giver P ([] : List (Slot α)) :=
  nofun

theorem give (h : Lawful budget decode encode)
    (hset : ∀ value a, (encode value).nesting ≤ budget → P (set value a))
    (hrest : Settles giver P slots) :
    Settles giver P (⟨name, mandatory, fun r => set <$> decode r⟩ :: slots) := by
  refine List.forall_mem_cons.2 ⟨?_, hrest⟩
  intro r _ a hok _
  obtain ⟨value, hvalue, rfl⟩ := exists_of_map_eq_ok hok
  exact hset value a (h.nesting_le hvalue)

theorem change (h : Lawful budget decode encode) (hname : some name ≠ giver)
    (hset : ∀ value a, (encode value).nesting ≤ budget → P a → P (set value a))
    (hrest : Settles giver P slots) :
    Settles giver P (⟨name, mandatory, fun r => set <$> decode r⟩ :: slots) := by
  refine List.forall_mem_cons.2 ⟨?_, hrest⟩
  intro r _ a hok ha
  obtain ⟨value, hvalue, rfl⟩ := exists_of_map_eq_ok hok
  exact hset value a (h.nesting_le hvalue) (ha.resolve_left hname)

theorem keep (hname : some name ≠ giver) (hset : ∀ value a, P a → P (set value a))
    (hrest : Settles giver P slots) :
    Settles giver P (⟨name, mandatory, fun r => set <$> decode r⟩ :: slots) := by
  refine List.forall_mem_cons.2 ⟨?_, hrest⟩
  intro r _ a hok ha
  obtain ⟨value, _, rfl⟩ := exists_of_map_eq_ok hok
  exact hset value a (ha.resolve_left hname)

def Awaits (giver : Option String) (slots : List (Slot α)) (seen : List String) : Prop :=
  ∃ slot ∈ slots, slot.mandatory = true ∧ some slot.name = giver ∧ slot.name ∉ seen

theorem ofItems (h : Settles giver P slots) {a b : α} (ha : P a ∨ Awaits giver slots [])
    {expected : String} {closed : Bool} {position : Nat} {rs : List Reading}
    (hok : Decoder.ofItems expected closed position a slots rs = .ok b) : P b := by
  induction slots generalizing a position rs with
  | nil =>
    rcases ha with ha | ⟨_, hmem, -⟩
    . cases rs with
      | nil =>
        cases closed with
        | false => cases hok
        | true =>
          cases hok
          exact ha
      | cons => cases hok
    . cases hmem
  | cons slot slots ih =>
    cases rs with
    | nil =>
      cases closed with
      | false => cases hok
      | true =>
        simp only [Decoder.ofItems, Bool.not_true, Bool.false_eq_true, if_false] at hok
        split at hok
        . cases hok
        . next hnone =>
          cases hok
          -- The items have ended, so no slot that is left is mandatory.
          rw [List.findIdx?_eq_none_iff] at hnone
          rcases ha with ha | ⟨other, hmem, hmandatory, -⟩
          . exact ha
          . rw [hnone other hmem] at hmandatory
            cases hmandatory
    | cons r rs =>
      obtain ⟨set, hset, hok⟩ := exists_of_bind_eq_ok hok
      obtain ⟨hslot, hrest⟩ := List.forall_mem_cons.1 h
      apply ih hrest ?_ hok
      by_cases hsettled : some slot.name = giver ∨ P a
      . exact .inl (hslot hset hsettled)
      . rcases ha with ha | ⟨other, hmem, hawaits⟩
        . exact absurd (.inr ha) hsettled
        . rcases List.mem_cons.1 hmem with rfl | hmem
          . exact absurd (.inl hawaits.2.1) hsettled
          . exact .inr ⟨other, hmem, hawaits⟩

theorem ofMembers (h : Settles giver P slots) {a b : α} {seen : List String}
    (ha : P a ∨ Awaits giver slots seen) {closed : Bool} {members : List (Option String × Reading)}
    (hok : Decoder.ofMembers slots closed seen a members = .ok b) : P b := by
  induction members generalizing a seen with
  | nil =>
    cases closed with
    | false => cases hok
    | true =>
      simp only [Decoder.ofMembers, Bool.not_true, Bool.false_eq_true, if_false] at hok
      split at hok
      . cases hok
      . next hnone =>
        cases hok
        -- All mandatory slots were seen, the giver would be one of them.
        rw [List.find?_eq_none] at hnone
        rcases ha with ha | ⟨slot, hmem, hmandatory, -, hunseen⟩
        . exact ha
        . exact absurd (by simpa [hmandatory] using hnone slot hmem) hunseen
  | cons member members ih =>
    obtain ⟨key, r⟩ := member
    cases key with
    | none => cases hok
    | some key =>
      rw [Decoder.ofMembers] at hok
      split at hok
      . split at hok
        . exact ih ha hok
        . cases hok
      . next slot hfind =>
        have hmem := List.mem_of_find?_eq_some hfind
        have hkey : slot.name = key := by simpa using List.find?_some hfind
        split at hok
        . cases hok
        . obtain ⟨set, hset, hok⟩ := exists_of_bind_eq_ok hok
          apply ih ?_ hok
          by_cases hsettled : some slot.name = giver ∨ P a
          . exact .inl (h slot hmem hset hsettled)
          . rcases ha with ha | ⟨other, hother, hmandatory, hname, hunseen⟩
            . exact absurd (.inr ha) hsettled
            . refine .inr ⟨other, hother, hmandatory, hname, ?_⟩
              rw [List.mem_cons, not_or, ← hkey]
              exact ⟨fun heq => hsettled (.inl (heq ▸ hname)), hunseen⟩

end Settles

section Records

variable {slots : List (Slot α)} {blank a : α} {name : String} {r : Reading}

theorem pos_of_record_eq_ok (hok : Decoder.record name budget blank slots r = .ok a) :
    0 < budget := by
  unfold Decoder.record at hok
  split at hok
  . split at hok
    . cases hok
    . omega
  . split at hok
    . cases hok
    . omega
  . exact absurd hok (mismatch_ne_ok _ r a)

theorem record_settled (hok : Decoder.record name budget blank slots r = .ok a)
    (giver : Option String) (P : α → Prop) (h : Settles giver P slots)
    (hblank : P blank ∨ Settles.Awaits giver slots []) : P a := by
  unfold Decoder.record at hok
  split at hok
  . split at hok
    . cases hok
    . exact h.ofItems hblank hok
  . split at hok
    . cases hok
    . exact h.ofMembers hblank hok
  . exact absurd hok (mismatch_ne_ok _ r a)

theorem Lawful.record {members : α → List (String × Json)} (hnodup : (slots.map (·.name)).Nodup)
    (hmembers : ∀ a, Inscribed (budget - 1) slots (members a) blank a)
    (hfound : ∀ {r a}, Decoder.record name budget blank slots r = .ok a →
      ∀ member ∈ members a, member.2.nesting ≤ budget - 1) :
    Lawful budget (Decoder.record name budget blank slots) fun a => .object (members a) where
  restores a := (hmembers a).restores hnodup name
  nesting_le hok := by
    have hle := nesting.ofMembers_le_iff.2 (hfound hok)
    have hpos := pos_of_record_eq_ok hok
    rw [nesting]
    omega

end Records

end Bindings.Json
