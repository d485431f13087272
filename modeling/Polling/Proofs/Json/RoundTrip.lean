import Polling.Proofs.Json.Tokens

namespace Polling.Json

namespace Reader

theorem foldlM_of_step? {s t : State} {token : Token} (h : step? s token = some t)
    (ts : List Token) : (token :: ts).foldlM step? s = ts.foldlM step? t := by
  rw [List.foldlM_cons, h]
  rfl

/-- The first item of an array is read as any value is. -/
theorem foldlM_firstItem (outer : List Frame) (v : Json) (ts : List Token) :
    (v.tokens ++ ts).foldlM step? (.firstItem outer) =
      (v.tokens ++ ts).foldlM step? (.value (.items [] :: outer)) := by
  match v with
  | .null | .bool _ | .int _ | .real | .string _ | .array [] | .array (_ :: _) | .object []
  | .object (_ :: _) => rfl

/-- The first name of an object is read as any other. -/
theorem foldlM_firstName (outer : List Frame) (m : Option String × Json) (ts : List Token) :
    (memberTokens m ++ ts).foldlM step? (.firstName outer) =
      (memberTokens m ++ ts).foldlM step? (.name [] outer) := by
  cases m
  rfl

-- The induction is on the value; the arrays and objects that are open around it vary.
mutual

theorem foldlM_tokens (outer : List Frame) (v : Json) (ts : List Token) :
    (v.tokens ++ ts).foldlM step? (.value outer) = ts.foldlM step? (.done v outer) := by
  match v with
  | .null | .bool _ | .int _ | .real | .string _ | .array [] | .object [] => rfl
  | .array (v :: vs) =>
    have opened : step? (.value outer) .openBracket = some (.firstItem outer) := rfl
    simp only [tokens, List.cons_append, List.append_assoc, List.nil_append]
    rw [foldlM_of_step? opened, foldlM_firstItem, foldlM_tokens, foldlM_itemTokens]
    rfl
  | .object (m :: ms) =>
    have opened : step? (.value outer) .openBrace = some (.firstName outer) := rfl
    simp only [tokens, List.cons_append, List.append_assoc, List.nil_append]
    rw [foldlM_of_step? opened, foldlM_firstName, foldlM_memberTokens, foldlM_laterTokens]
    rfl
termination_by structural v

theorem foldlM_itemTokens (outer : List Frame) (before : List Json) (v : Json) (vs : List Json)
    (ts : List Token) :
    (itemTokens vs ++ .closeBracket :: ts).foldlM step? (.done v (.items before :: outer)) =
      ts.foldlM step? (.done (.array ((v :: before).reverse ++ vs)) outer) := by
  match vs with
  | [] =>
    rw [List.append_nil]
    rfl
  | w :: vs =>
    have comma : step? (.done v (.items before :: outer)) .comma =
        some (.value (.items (v :: before) :: outer)) := rfl
    simp only [itemTokens, List.cons_append, List.append_assoc]
    rw [foldlM_of_step? comma, foldlM_tokens, foldlM_itemTokens, List.reverse_cons,
      List.append_assoc, List.singleton_append]
termination_by structural vs

theorem foldlM_memberTokens (outer : List Frame) (before : List (Option String × Json))
    (m : Option String × Json) (ts : List Token) :
    (memberTokens m ++ ts).foldlM step? (.name before outer) =
      ts.foldlM step? (.done m.2 (.members before m.1 :: outer)) := by
  match m with
  | (name, v) => exact foldlM_tokens (.members before name :: outer) v ts
termination_by structural m

theorem foldlM_laterTokens (outer : List Frame) (before : List (Option String × Json))
    (m : Option String × Json) (ms : List (Option String × Json)) (ts : List Token) :
    (laterTokens ms ++ .closeBrace :: ts).foldlM step?
        (.done m.2 (.members before m.1 :: outer)) =
      ts.foldlM step? (.done (.object ((m :: before).reverse ++ ms)) outer) := by
  match ms with
  | [] =>
    rw [List.append_nil]
    rfl
  | next :: ms =>
    have comma : step? (.done m.2 (.members before m.1 :: outer)) .comma =
        some (.name (m :: before) outer) := rfl
    simp only [laterTokens, List.cons_append, List.append_assoc]
    rw [foldlM_of_step? comma, foldlM_memberTokens, foldlM_laterTokens, List.reverse_cons,
      List.append_assoc, List.singleton_append]
termination_by structural ms

end

end Reader

theorem ofTokens?_tokens (v : Json) : ofTokens? v.tokens = some v := by
  have read := Reader.foldlM_tokens [] v []
  rw [List.append_nil] at read
  rw [ofTokens?, read]
  rfl

theorem ofChars?_write (l : Layout) (v : Json) : ofChars? (v.write l) = some v := by
  rw [ofChars?, tokens?_write]
  exact ofTokens?_tokens v

end Polling.Json
