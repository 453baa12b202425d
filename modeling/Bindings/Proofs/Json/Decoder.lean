import Bindings.Json.Decoder
import Bindings.Proofs.Json.Nesting
import Bindings.Proofs.Json.Reading
import Bindings.Proofs.Validity

/-!
This module contains that decoders restore what was written within their budget and that they return
nothing which cannot be written within it.
-/

namespace Bindings.Json

/--
The decoder finds a value in its JSON form, if the budget is enough for the brackets of this form.
-/
structure Restores (budget : Nat) (decode : Decoder α) (json : Json) (a : α) : Prop where
  eq_ok (h : json.nesting ≤ budget) : decode json.reading = .ok a
  eq_error (h : budget < json.nesting) : decode json.reading = .error .unreadable

structure Lawful (budget : Nat) (decode : Decoder α) (encode : α → Json) : Prop where
  restores (a : α) : Restores budget decode (encode a) a
  /-- Whatever form a value was found in, the budget is enough for its own form. -/
  nesting_le {r : Reading} {a : α} (h : decode r = .ok a) : (encode a).nesting ≤ budget

theorem Restores.map {budget : Nat} {decode : Decoder α} {json : Json} {a : α}
    (h : Restores budget decode json a) (f : α → β) :
    Restores budget (fun r => f <$> decode r) json (f a) where
  eq_ok hle := by
    show f <$> decode json.reading = .ok (f a)
    rw [h.eq_ok hle]
    rfl
  eq_error hlt := by
    show f <$> decode json.reading = .error .unreadable
    rw [h.eq_error hlt]
    rfl

theorem Restores.flat {budget : Nat} {decode : Decoder α} {json : Json} {a : α}
    (hflat : json.nesting = 0) (h : decode json.reading = .ok a) :
    Restores budget decode json a where
  eq_ok _ := h
  eq_error hlt := by omega

theorem lawful_text (budget : Nat) : Lawful budget Decoder.text .string where
  restores _ := .flat rfl rfl
  nesting_le _ := Nat.zero_le budget

theorem lawful_flag (budget : Nat) : Lawful budget Decoder.flag .bool where
  restores _ := .flat rfl rfl
  nesting_le _ := Nat.zero_le budget

theorem lawful_optional_text (budget : Nat) :
    Lawful budget (Decoder.optional Decoder.text) ofOption where
  restores value := by
    apply Restores.flat (nesting_ofOption value)
    cases value <;> rfl
  nesting_le _ := by simp [nesting_ofOption]

section Lists

variable {budget : Nat} {decode : Decoder α} {encode : α → Json}

theorem items_eq_ok (h : Lawful budget decode encode) {as : List α}
    (hle : nesting.ofItems (as.map encode) ≤ budget) :
    Decoder.items decode (reading.ofItems (as.map encode)) = .ok as := by
  induction as with
  | nil => rfl
  | cons a as ih =>
    obtain ⟨ha, has⟩ := Nat.max_le.1 hle
    rw [List.map_cons, reading.ofItems, Decoder.items, (h.restores a).eq_ok ha, ih has]
    rfl

theorem items_eq_error (h : Lawful budget decode encode) {as : List α}
    (hlt : budget < nesting.ofItems (as.map encode)) :
    Decoder.items decode (reading.ofItems (as.map encode)) = .error .unreadable := by
  induction as with
  | nil => cases hlt
  | cons a as ih =>
    rw [List.map_cons, reading.ofItems, Decoder.items]
    by_cases ha : (encode a).nesting ≤ budget
    . rw [(h.restores a).eq_ok ha, ih]
      . rfl
      . rw [List.map_cons, nesting.ofItems] at hlt
        omega
    . rw [(h.restores a).eq_error (by omega)]
      rfl

theorem nesting_le_of_items (h : Lawful budget decode encode) {rs : List Reading} {as : List α}
    (hok : Decoder.items decode rs = .ok as) : nesting.ofItems (as.map encode) ≤ budget := by
  induction rs generalizing as with
  | nil =>
    cases hok
    exact Nat.zero_le budget
  | cons r rs ih =>
    obtain ⟨a, ha, hok⟩ := exists_of_bind_eq_ok hok
    obtain ⟨as, has, hok⟩ := exists_of_bind_eq_ok hok
    cases hok
    exact Nat.max_le.2 ⟨h.nesting_le ha, ih has⟩

theorem mismatch_ne_ok (expected : String) (r : Reading) (a : α) :
    Decoder.mismatch expected r ≠ .ok a := by
  unfold Decoder.mismatch
  split <;> exact fun h => nomatch h

theorem array_of_list_eq_ok {r : Reading} {as : List α}
    (hok : Decoder.list budget decode r = .ok as) :
    0 < budget ∧ ∃ rs, r = .array rs true ∧ Decoder.items decode rs = .ok as := by
  unfold Decoder.list at hok
  split at hok
  . next rs closed =>
    by_cases hzero : budget = 0
    . rw [if_pos hzero] at hok
      cases hok
    . rw [if_neg hzero] at hok
      obtain ⟨as', has, hok⟩ := exists_of_bind_eq_ok hok
      cases closed with
      | false => cases hok
      | true =>
        cases hok
        exact ⟨by omega, rs, rfl, has⟩
  . exact absurd hok (mismatch_ne_ok _ r as)

theorem Lawful.list (h : Lawful (budget - 1) decode encode) :
    Lawful budget (Decoder.list budget decode) fun as => .array (as.map encode) where
  restores as := by
    constructor
    . intro hle
      rw [nesting] at hle
      rw [reading, Decoder.list, if_neg (by omega), items_eq_ok h (by omega)]
      rfl
    . intro hlt
      rw [nesting] at hlt
      rw [reading, Decoder.list]
      split
      . rfl
      . rw [items_eq_error h (by omega)]
        rfl
  nesting_le hok := by
    obtain ⟨hpos, rs, rfl, has⟩ := array_of_list_eq_ok hok
    have := nesting_le_of_items h has
    rw [nesting]
    omega

end Lists

section Alternatives

variable {budget : Nat} {alternatives : List (String × Decoder.Alternative α)} {name : String}

theorem Restores.bare {a : α} (h : alternatives.lookup name = some (.unit a)) :
    Restores budget (Decoder.oneOf budget alternatives) (.string name) a := by
  apply Restores.flat rfl
  rw [reading, Decoder.oneOf, Decoder.choose, h]
  rfl

theorem Restores.payload {alternative : Decoder.Alternative α} {json : Json} {a : α}
    (hlookup : alternatives.lookup name = some alternative)
    (h : Restores (budget - 1) alternative.payload json a) :
    Restores budget (Decoder.oneOf budget alternatives) (.object [(name, json)]) a := by
  constructor
  . intro hle
    rw [nesting_singleton] at hle
    rw [reading, reading.ofMembers, Decoder.oneOf, if_neg (by omega), Decoder.choose, hlookup]
    show (alternative.payload json.reading >>= _) = _
    rw [h.eq_ok (by omega)]
    rfl
  . intro hlt
    rw [nesting_singleton] at hlt
    rw [reading, reading.ofMembers, Decoder.oneOf]
    split
    . rfl
    . rw [Decoder.choose, hlookup]
      show (alternative.payload json.reading >>= _) = _
      rw [h.eq_error (by omega)]
      rfl

theorem choose_eq_ok {alternative : Decoder.Alternative α}
    (h : Decoder.choose alternatives name = .ok alternative) :
    (name, alternative) ∈ alternatives := by
  unfold Decoder.choose at h
  split at h
  . next hlookup =>
    cases h
    obtain ⟨before, after, heq, -⟩ := List.lookup_eq_some_iff.1 hlookup
    rw [heq]
    exact List.mem_append_right before List.mem_cons_self
  . cases h

theorem alternative_of_oneOf_eq_ok {r : Reading} {a : α}
    (hok : Decoder.oneOf budget alternatives r = .ok a) :
    ∃ name alternative, (name, alternative) ∈ alternatives ∧
      (alternative.bare = .ok a ∨ 0 < budget ∧ ∃ r, alternative.payload r = .ok a) := by
  unfold Decoder.oneOf at hok
  split at hok
  . next name =>
    obtain ⟨alternative, hchoose, hok⟩ := exists_of_bind_eq_ok hok
    exact ⟨name, alternative, choose_eq_ok hchoose, .inl hok⟩
  . next name r members closed =>
    by_cases hzero : budget = 0
    . rw [if_pos hzero] at hok
      cases hok
    . rw [if_neg hzero] at hok
      obtain ⟨alternative, hchoose, hok⟩ := exists_of_bind_eq_ok hok
      obtain ⟨b, hpayload, hok⟩ := exists_of_bind_eq_ok hok
      split at hok
      . cases hok
        exact ⟨name, alternative, choose_eq_ok hchoose, .inr ⟨by omega, r, hpayload⟩⟩
      . cases hok
  . cases hok

structure Fits (budget : Nat) (encode : α → Json) (alternative : Decoder.Alternative α) :
    Prop where
  bare {a : α} (h : alternative.bare = .ok a) : (encode a).nesting = 0
  payload {r : Reading} {a : α} (hpos : 0 < budget) (h : alternative.payload r = .ok a) :
    (encode a).nesting ≤ budget

variable {encode : α → Json}

theorem Fits.unit {a : α} (h : (encode a).nesting = 0) : Fits budget encode (.unit a) where
  bare hok := by
    cases hok
    exact h
  payload {r _} _ hok := by
    by_cases hnull : r = .null
    . subst hnull
      cases hok
      omega
    . rw [Decoder.Alternative.payload] at hok
      . exact absurd hok (mismatch_ne_ok "unit" r _)
      . exact hnull

theorem Fits.newtype {decode : Decoder α}
    (h : ∀ {r a}, 0 < budget → decode r = .ok a → (encode a).nesting ≤ budget) :
    Fits budget encode (.newtype decode) where
  bare := nofun
  payload := h

theorem Fits.struct {decode : Decoder α}
    (h : ∀ {r a}, 0 < budget → decode r = .ok a → (encode a).nesting ≤ budget) :
    Fits budget encode (.struct decode) where
  bare := nofun
  payload := h

section Payloads

variable {decode : Decoder β} {write : β → Json} {f : β → α}

theorem Lawful.nesting_le_of_map (h : Lawful (budget - 1) decode write)
    (hencode : ∀ b, encode (f b) = .object [(name, write b)]) {r : Reading} {a : α}
    (hpos : 0 < budget) (hok : f <$> decode r = .ok a) : (encode a).nesting ≤ budget := by
  obtain ⟨b, hb, rfl⟩ := exists_of_map_eq_ok hok
  have hle := h.nesting_le hb
  rw [hencode, nesting_singleton]
  omega

theorem Fits.newtype_map (h : Lawful (budget - 1) decode write)
    (hencode : ∀ b, encode (f b) = .object [(name, write b)]) :
    Fits budget encode (.newtype fun r => f <$> decode r) :=
  .newtype (h.nesting_le_of_map hencode)

theorem Fits.struct_map (h : Lawful (budget - 1) decode write)
    (hencode : ∀ b, encode (f b) = .object [(name, write b)]) :
    Fits budget encode (.struct fun r => f <$> decode r) :=
  .struct (h.nesting_le_of_map hencode)

end Payloads

theorem Lawful.oneOf
    (hrestores : ∀ a, Restores budget (Decoder.oneOf budget alternatives) (encode a) a)
    (hfits : ∀ p ∈ alternatives, Fits budget encode p.2) :
    Lawful budget (Decoder.oneOf budget alternatives) encode where
  restores := hrestores
  nesting_le hok := by
    obtain ⟨_, alternative, hmem, hok | ⟨hpos, r, hok⟩⟩ := alternative_of_oneOf_eq_ok hok
    . rw [(hfits _ hmem).bare hok]
      exact Nat.zero_le budget
    . exact (hfits _ hmem).payload hpos hok

end Alternatives

section Texts

variable {budget : Nat} {decode : Decoder α} {encode : α → Json}

theorem run_eq_of_read {text : String} {r : Reading} {complete : Bool}
    (h : read text = (r, complete)) : Decoder.run decode text
      = decode r >>= fun a => if complete then .ok a else .error .unreadable := by
  rw [Decoder.run, h]
  rfl

theorem Lawful.run_pretty (h : Lawful budget decode encode) (a : α) :
    Decoder.run decode (encode a).pretty
      = if openBrackets (encode a).pretty ≤ budget then .ok a else .error .unreadable := by
  rw [run_eq_of_read (read_pretty _), openBrackets_pretty]
  by_cases hle : (encode a).nesting ≤ budget
  . rw [(h.restores a).eq_ok hle, if_pos hle]
    rfl
  . rw [(h.restores a).eq_error (by omega), if_neg hle]
    rfl

theorem Lawful.openBrackets_le (h : Lawful budget decode encode) {text : String} {a : α}
    (hok : Decoder.run decode text = .ok a) : openBrackets (encode a).pretty ≤ budget := by
  obtain ⟨r, complete, hread⟩ : ∃ r complete, read text = (r, complete) := ⟨_, _, rfl⟩
  rw [run_eq_of_read hread] at hok
  obtain ⟨b, hb, hok⟩ := exists_of_bind_eq_ok hok
  cases complete with
  | false => cases hok
  | true =>
    cases hok
    rw [openBrackets_pretty]
    exact h.nesting_le hb

end Texts

end Bindings.Json
