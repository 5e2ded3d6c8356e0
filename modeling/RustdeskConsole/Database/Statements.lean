import RustdeskConsole.Collections.Numeral

namespace RustdeskConsole.Database

open Collections

/-- The lexemes of a MySQL statement: bare words in capitals, names and texts in
quotes, and every other character by itself. -/
inductive Token
  | word (text : String)
  | quoted
  | mark (c : Char)
  deriving DecidableEq

/-- Where the lexer is. `closing` has met the mark of its quotes and may meet it once
more; `opened` has met the start of a comment, which is none if `!` follows. -/
inductive Mode
  | plain
  | word (reversed : List Char)
  | slash
  | dash
  | dashes
  | times
  | line
  | opened
  | version
  | block
  | star
  | quoted (q : Char)
  | escaped (q : Char)
  | closing (q : Char)
  deriving DecidableEq

def isWordChar (c : Char) : Bool := c.isAlphanum || c = '_' || c = '$' || 128 ≤ c.toNat

def isQuote (c : Char) : Bool := c = '\'' || c = '"' || c = '\u0060'

/-- Outside of everything. -/
def Mode.enter (c : Char) : Mode × List Token :=
  if isSpace c then (.plain, [])
  else if isWordChar c then (.word [c], [])
  else if isQuote c then (.quoted c, [])
  else if c = '/' then (.slash, [])
  else if c = '-' then (.dash, [])
  else if c = '*' then (.times, [])
  else if c = '#' then (.line, [])
  else (.plain, [.mark c])

def Mode.leave : Mode → List Token
  | .word reversed => [.word (String.ofList (reversed.reverse.map Char.toUpper))]
  | .slash => [.mark '/']
  | .dash => [.mark '-']
  | .times => [.mark '*']
  | .closing _ | .quoted _ | .escaped _ => [.quoted]
  | _ => []

/-- The mode ends before the character. -/
def Mode.next (m : Mode) (c : Char) : Mode × List Token :=
  ((enter c).1, m.leave ++ (enter c).2)

def Mode.step (m : Mode) (c : Char) : Mode × List Token :=
  match m with
  | .plain => enter c
  | .word reversed => if isWordChar c then (.word (c :: reversed), []) else m.next c
  | .slash => if c = '*' then (.opened, []) else m.next c
  | .dash => if c = '-' then (.dashes, []) else m.next c
  | .dashes => if isSpace c then (if c = '\n' then .plain else .line, [])
    else ((enter c).1, [.mark '-', .mark '-'] ++ (enter c).2)
  | .times => if c = '/' then (.plain, []) else m.next c
  | .line => (if c = '\n' then .plain else .line, [])
  | .opened => (if c = '!' then .version else if c = '*' then .star else .block, [])
  | .version => if c.isDigit then (.version, []) else enter c
  | .block => (if c = '*' then .star else .block, [])
  | .star => (if c = '/' then .plain else if c = '*' then .star else .block, [])
  | .quoted q => (if c = q then .closing q
    else if c = '\\' ∧ q ≠ '\u0060' then .escaped q else .quoted q, [])
  | .escaped q => (.quoted q, [])
  | .closing q => if c = q then (.quoted q, []) else m.next c

def lex (m : Mode) : List Char → List Token
  | [] => m.leave
  | c :: cs => (m.step c).2 ++ lex (m.step c).1 cs

def tokens (sql : String) : List Token := lex .plain sql.toList

/-- The clauses of an `ALTER TABLE`, which commas part that are in no brackets. -/
def clauses (depth : ℕ) (clause : List Token) : List Token → List (List Token)
  | [] => [clause.reverse]
  | .mark ',' :: ts =>
    if depth = 0 then clause.reverse :: clauses 0 [] ts
    else clauses depth (.mark ',' :: clause) ts
  | .mark '(' :: ts => clauses (depth + 1) (.mark '(' :: clause) ts
  | .mark ')' :: ts => clauses (depth - 1) (.mark ')' :: clause) ts
  | t :: ts => clauses depth (t :: clause) ts

/-- What follows the name of a table, with or without that of its database. -/
def afterName : List Token → Option (List Token)
  | .mark '.' :: _ | .mark _ :: _ | [] => none
  | _ :: .mark '.' :: .mark _ :: _ => none
  | _ :: .mark '.' :: _ :: ts => some ts
  | _ :: ts => some ts

inductive Statement
  | createTable
  | createIndex
  | alterTable (clauses : List (List Token))
  | other
  deriving DecidableEq

def indexKinds : List String := ["UNIQUE", "FULLTEXT", "SPATIAL"]

def parse : List Token → Statement
  | .word "CREATE" :: .word "TABLE" :: _
  | .word "CREATE" :: .word "TEMPORARY" :: .word "TABLE" :: _ => .createTable
  | .word "CREATE" :: .word "INDEX" :: _ => .createIndex
  | .word "CREATE" :: .word kind :: .word "INDEX" :: _ =>
    if kind ∈ indexKinds then .createIndex else .other
  | .word "ALTER" :: .word "TABLE" :: ts =>
    match afterName ts with
    | none => .other
    | some ts => .alterTable (clauses 0 [] ts)
  | _ => .other

/-- The text is one statement, up to a semicolon at its end. -/
def IsSingle (ts : List Token) : Prop := ∀ t ∈ ts.dropLast, t ≠ .mark ';'

def IsAdd (clause : List Token) : Prop := clause.head? = some (.word "ADD")

/-- A statement that creates a table or an index, or only adds to a table. -/
def Statement.IsAdditive : Statement → Prop
  | .createTable | .createIndex => True
  | .alterTable clauses => ∀ clause ∈ clauses, IsAdd clause
  | .other => False

instance (clause : List Token) : Decidable (IsAdd clause) :=
  inferInstanceAs (Decidable (_ = _))

instance : (statement : Statement) → Decidable statement.IsAdditive
  | .createTable | .createIndex => inferInstanceAs (Decidable True)
  | .alterTable clauses => inferInstanceAs (Decidable (∀ clause ∈ clauses, IsAdd clause))
  | .other => inferInstanceAs (Decidable False)

def Additive (sql : String) : Prop := IsSingle (tokens sql) ∧ (parse (tokens sql)).IsAdditive

instance (sql : String) : Decidable (Additive sql) :=
  inferInstanceAs (Decidable ((∀ t ∈ _, _) ∧ _))

example : Additive "ALTER TABLE \u0060a\u0060 ADD \u0060b\u0060 enum('x', 'y') /* DROP */" := by
  decide +kernel

example : ¬Additive "alter table a add b int, change c d int" := by decide +kernel

end RustdeskConsole.Database
