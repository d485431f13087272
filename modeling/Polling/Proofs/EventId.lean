import Polling.EventId
import Polling.Proofs.Text.Digits

namespace Polling.EventId

def hex (id : EventId) : List Char := id.digits.toList.map fun d : Fin 16 => Nat.digitChar d.val

theorem length_hex (id : EventId) : id.hex.length = 32 := by
  rw [hex, List.length_map, Vector.length_toList]

/-- Each character is read back as the digit that it writes. -/
theorem ofHex?_hex (t : EventId) : ofHex? t.hex = some t := by
  have digit (d : Fin 16) : (do
      let n ← Text.hexDigit? (Nat.digitChar d.val)
      if h : n < 16 then some (⟨n, h⟩ : Fin 16) else none) = pure (id d) := by
    rw [Text.hexDigit?_digitChar d.val d.isLt]
    exact dif_pos d.isLt
  rw [ofHex?, hex, List.mapM_map]
  simp only [Function.comp_def]
  rw [funext digit, List.mapM_pure, List.map_id, pure_bind, ofDigits?,
    dif_pos t.digits.length_toList]
  rfl

/-- The hyphens are where they are looked for, and without them the groups are as they were. -/
theorem ungrouped?_groups {a b c d e : List Char} (ha : a.length = 8) (hb : b.length = 4)
    (hc : c.length = 4) (hd : d.length = 4) :
    ungrouped? (a ++ '-' :: b ++ '-' :: c ++ '-' :: d ++ '-' :: e) =
      some (a ++ b ++ c ++ d ++ e) := by
  simp (disch := omega) [ungrouped?, List.getElem?_append, List.getElem?_cons_zero,
    List.drop_append, List.drop_of_length_le, ha, hb, hc, hd]

theorem toChars_eq (id : EventId) :
    id.toChars = id.hex.take 8 ++ '-' :: (id.hex.drop 8).take 4 ++ '-' :: (id.hex.drop 12).take 4 ++
      '-' :: (id.hex.drop 16).take 4 ++ '-' :: id.hex.drop 20 := rfl

/-- The text of an id without its hyphens is its digits. -/
theorem ungrouped?_toChars (id : EventId) : ungrouped? id.toChars = some id.hex := by
  have groups : id.hex.take 8 ++ (id.hex.drop 8).take 4 ++ (id.hex.drop 12).take 4 ++
      (id.hex.drop 16).take 4 ++ id.hex.drop 20 = id.hex := by
    rw [← List.take_add, ← List.take_add, ← List.take_add, List.take_append_drop]
  rw [toChars_eq, ungrouped?_groups (by simp [length_hex]) (by simp [length_hex])
    (by simp [length_hex]) (by simp [length_hex]), groups]

/-- A digit is no brace. -/
theorem inBraces?_toChars (id : EventId) : inBraces? id.toChars = none := by
  have digit : ∀ d : Fin 16, Nat.digitChar d.val ≠ '\x7b' := by decide
  obtain ⟨c, cs, h⟩ := List.exists_cons_of_length_eq_add_one id.length_hex
  have brace : c ≠ '\x7b' := by
    have member : c ∈ id.hex := h ▸ List.mem_cons_self
    obtain ⟨d, -, rfl⟩ := List.mem_map.1 member
    exact digit d
  rw [toChars_eq, h, List.take_succ_cons]
  simp only [List.cons_append]
  rw [inBraces?]
  exact fun rest hr => brace (List.cons.inj hr).1

/-- Where the scheme has its second colon, the text has its first hyphen. -/
theorem afterScheme?_toChars (id : EventId) : afterScheme? id.toChars = none := by
  refine if_neg fun scheme => ?_
  have ninth := congrArg (·[8]?) scheme
  simp [toChars_eq, length_hex] at ninth

/-- An id is read back from its text. -/
theorem ofString?_toString (id : EventId) : ofString? (toString id) = some id := by
  have text : (toString id).toList = id.toChars := String.toList_ofList
  have length : id.toChars.length ≠ 32 := by simp [toChars_eq, length_hex]
  rw [ofString?, text, inBraces?_toChars, afterScheme?_toChars]
  dsimp only
  rw [if_neg length, ofGrouped?, ungrouped?_toChars, Option.bind_eq_bind, Option.bind_some,
    ofHex?_hex]

end Polling.EventId
