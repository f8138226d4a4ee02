import LineChart.Json.Token

/-!
# The form of a JSON text

A `Form` is what a JSON text says before its numerals and quoted texts are given a meaning: fields
stand in the order of the text, equal names are kept, and nesting is not limited. `Form.ofTokens?`
builds it from tokens, one token a step, with the open lists and records in a list of frames.
-/

namespace LineChart.Json

inductive Form where
  | null
  | flag (value : Bool)
  | number (numeral : Numeral)
  | quoted (pieces : List Piece)
  | list (items : List Form)
  | record (fields : List (List Piece × Form))

/-- A list or a record that is still open. Items and fields found so far are kept in reverse. -/
inductive Frame where
  | list (items : List Form)
  | record (fields : List (List Piece × Form)) (name : List Piece)

/-- What the builder expects, with the open frames, the innermost first. -/
inductive Building where
  | value (frames : List Frame)
  /-- A first item, or the end of the list. -/
  | firstItem (frames : List Frame)
  /-- A name, or the end of the record if `canClose`. -/
  | name (fields : List (List Piece × Form)) (canClose : Bool) (frames : List Frame)
  | colon (fields : List (List Piece × Form)) (name : List Piece) (frames : List Frame)
  /-- A comma or the end of the list. -/
  | itemEnd (items : List Form) (frames : List Frame)
  /-- A comma or the end of the record. -/
  | fieldEnd (fields : List (List Piece × Form)) (frames : List Frame)
  | finished (form : Form)

namespace Building

/-- Hands a complete value to the innermost frame. -/
def deliver (form : Form) : List Frame → Building
  | [] => .finished form
  | .list items :: frames => .itemEnd (form :: items) frames
  | .record fields key :: frames => .fieldEnd ((key, form) :: fields) frames

/-- Takes the first token of a value. -/
def begin (frames : List Frame) : Token → Option Building
  | .null => some (deliver .null frames)
  | .flag b => some (deliver (.flag b) frames)
  | .number n => some (deliver (.number n) frames)
  | .quoted pieces => some (deliver (.quoted pieces) frames)
  | .openList => some (.firstItem frames)
  | .openRecord => some (.name [] true frames)
  | _ => none

def step : Building → Token → Option Building
  | .value frames, token => begin frames token
  | .firstItem frames, .closeList => some (deliver (.list []) frames)
  | .firstItem frames, token => begin (.list [] :: frames) token
  | .name fields _ frames, .quoted key => some (.colon fields key frames)
  | .name _ true frames, .closeRecord => some (deliver (.record []) frames)
  | .colon fields key frames, .colon => some (.value (.record fields key :: frames))
  | .itemEnd items frames, .comma => some (.value (.list items :: frames))
  | .itemEnd items frames, .closeList => some (deliver (.list items.reverse) frames)
  | .fieldEnd fields frames, .comma => some (.name fields false frames)
  | .fieldEnd fields frames, .closeRecord => some (deliver (.record fields.reverse) frames)
  | _, _ => none

/-- All the tokens, one after the other. -/
def run : Building → List Token → Option Building
  | building, [] => some building
  | building, token :: rest =>
    match building.step token with
    | some next => run next rest
    | none => none

theorem run_append (building : Building) (front rest : List Token) :
    building.run (front ++ rest) = (building.run front).bind fun next => next.run rest := by
  induction front generalizing building with
  | nil => rfl
  | cons token front ih =>
    simp only [List.cons_append, run]
    cases building.step token with
    | none => rfl
    | some next => exact ih next

end Building

namespace Form

/-- The one value that some tokens make up. -/
def ofTokens? (tokens : List Token) : Option Form :=
  match Building.run (.value []) tokens with
  | some (.finished form) => some form
  | _ => none

/-- The form of a text. -/
def read? (text : String) : Option Form :=
  match Token.scan text.toList with
  | some tokens => ofTokens? tokens
  | none => none

end Form

end LineChart.Json
