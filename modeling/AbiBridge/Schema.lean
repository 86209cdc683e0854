import AbiBridge.Value.Basic

/-!
Checking data against what is expected.

A checker turns a `Value` into what it stands for, or lists everything that is wrong with it: a
complaint for each place, in the order of the fields and items. `Checked.both` goes on after a
complaint, so that no fault hides another; `Report.message` is the wording of the whole list.

* `both_eq_ok_iff` and `all_eq_ok_iff`: checks together succeed when each of them does;
* `obeying_eq_ok_iff`: a rule accepts what passes the check and does not break it.
-/

namespace AbiBridge

open Text

/-- What is wrong at one place. -/
inductive Complaint where
  /-- A field is not there. -/
  | missing
  | notText
  | notList
  | notTable
  /-- Something other than a table stands for the record of the given name. -/
  | notRecord (name : String)
  /-- The value is of a type that no truth value is read from. -/
  | notBoolean
  /-- The value might stand for a truth value and does not. -/
  | unclearBoolean
  /-- The value is none of the given words. -/
  | notOneOf (words : List String)
  | notPath
  /-- A rule of the field is broken. -/
  | rule (message : String)
  deriving DecidableEq, Repr

namespace Complaint

/-- Words between apostrophes, with commas and a last `or`. -/
def alternatives : List String → String
  | [] => ""
  | [w] => "'" ++ w ++ "'"
  | [v, w] => "'" ++ v ++ "' or '" ++ w ++ "'"
  | w :: ws => "'" ++ w ++ "', " ++ alternatives ws

/-- The wording of a complaint. -/
def text : Complaint → String
  | missing => "Field required"
  | notText => "Input should be a valid string"
  | notList => "Input should be a valid list"
  | notTable => "Input should be a valid dictionary"
  | notRecord name => "Input should be a valid dictionary or instance of " ++ name
  | notBoolean => "Input should be a valid boolean"
  | unclearBoolean => "Input should be a valid boolean, unable to interpret input"
  | notOneOf words => "Input should be " ++ alternatives words
  | notPath => "Input is not a valid path"
  | rule message => "Value error, " ++ message

/-- The class of a complaint. -/
def code : Complaint → String
  | missing => "missing"
  | notText => "string_type"
  | notList => "list_type"
  | notTable => "dict_type"
  | notRecord _ => "model_type"
  | notBoolean => "bool_type"
  | unclearBoolean => "bool_parsing"
  | notOneOf _ => "enum"
  | notPath => "path_type"
  | rule _ => "value_error"

end Complaint

/-- A complaint with its place: the keys and indices on the way to it. -/
structure Issue where
  location : List String
  complaint : Complaint
  deriving DecidableEq, Repr

namespace Issue

/-- A key or index as a report shows it: one that holds a point stands between backquotes, so that
the points between the parts of a place can be told from it. -/
def partText (part : String) : String :=
  if part.toList.contains '.' then "`" ++ part ++ "`" else part

/-- The lines of an issue up to the class of its complaint. -/
def text (i : Issue) : String :=
  let place := ".".intercalate (i.location.map partText)
  let placeLine := if i.location.isEmpty then "" else s!"\n{place}"
  let wording := i.complaint.text
  s!"{placeLine}\n  {wording} "

end Issue

/-- Everything that is wrong with the data of a record. -/
structure Report where
  record : String
  issues : List Issue
  deriving DecidableEq, Repr

namespace Report

/-- The line in front of the issues. -/
def summary (r : Report) : String :=
  let count := r.issues.length
  let noun := if count = 1 then "error" else "errors"
  let record := r.record
  s!"{count} validation {noun} for {record}"

/-- The wording of issues behind `before`. The class of a complaint stands in brackets behind it,
and `shown` is what becomes of the text up to each of those brackets. -/
def wording (shown : String → String) (before : String) : List Issue → String
  | [] => shown before
  | i :: is =>
      let upTo := shown (before ++ i.text)
      let code := i.complaint.code
      let rest := wording shown "" is
      s!"{upTo}[type={code}]{rest}"

/-- The wording of a report behind `heading`, with `shown` applied to all but the classes. -/
def messageBehind (shown : String → String) (heading : String) (r : Report) : String :=
  wording shown (heading ++ r.summary) r.issues

/-- The wording of a report. -/
def message (r : Report) : String := r.messageBehind id ""

end Report

/-! ### Checkers -/

/-- What a check gives: a value, or all that is wrong. -/
abbrev Checked (α : Type) := Except (List Issue) α

namespace Checked

/-- A check that fails here. -/
def complain {α : Type} (c : Complaint) : Checked α := .error [⟨[], c⟩]

/-- A check of what lies under a key or index. -/
def under {α : Type} (key : String) (x : Checked α) : Checked α :=
  x.mapError (·.map fun i => { i with location := key :: i.location })

/-- Two checks, whose complaints are put together. -/
def both {α β : Type} (x : Checked α) (y : Checked β) : Checked (α × β) :=
  match x, y with
  | .ok a, .ok b => .ok (a, b)
  | .ok _, .error js => .error js
  | .error is, .ok _ => .error is
  | .error is, .error js => .error (is ++ js)

theorem both_eq_ok_iff {α β : Type} {x : Checked α} {y : Checked β} {a : α} {b : β} :
    both x y = .ok (a, b) ↔ x = .ok a ∧ y = .ok b := by
  cases x <;> cases y <;> simp [both]

/-- The checks of a list, whose complaints are put together. -/
def all {α : Type} : List (Checked α) → Checked (List α)
  | [] => .ok []
  | x :: xs => (both x (all xs)).map fun (a, as) => a :: as

theorem all_eq_ok_iff {α : Type} {xs : List (Checked α)} {as : List α} :
    all xs = .ok as ↔ xs = as.map .ok := by
  induction xs generalizing as with
  | nil => cases as <;> simp [all]
  | cons x xs ih =>
      rw [all]
      cases as with
      | nil => cases x <;> cases all xs <;> simp [both, Except.map]
      | cons a as =>
          rw [List.map_cons, List.cons.injEq, ← ih]
          cases x <;> cases all xs <;> simp [both, Except.map]

end Checked

open Checked in
/-- A text. -/
def Value.asText : Value → Checked String
  | .text s => .ok s
  | _ => complain .notText

open Checked in
/-- A text or nothing. -/
def Value.asTextOrNull : Value → Checked (Option String)
  | .null => .ok none
  | .text s => .ok (some s)
  | _ => complain .notText

/-- The words that stand for truth. -/
def trueWords : List String := ["1", "on", "t", "true", "y", "yes"]

/-- The words that stand for falsehood. -/
def falseWords : List String := ["0", "off", "f", "false", "n", "no"]

/-- An ASCII text in lower case. -/
def lowerAscii (s : String) : String := String.ofList (s.toList.map Char.toLower)

/-- The least positive number that sixty-four bits with a sign cannot hold. -/
def wordBound : Int := 9223372036854775808

open Checked in
/-- The truth value of a whole number: zero and one stand for one, another number might if it is
`inRange`, and one beyond that does not. -/
def numberAsBoolean (n : Int) (inRange : Bool) : Checked Bool :=
  if n = 0 then .ok false
  else if n = 1 then .ok true
  else if inRange then complain .unclearBoolean
  else complain .notBoolean

open Checked in
/-- A truth value, or a number or word that stands for one. The least number of sixty-four bits is
in the range as an integer and not as a floating-point number. -/
def Value.asBoolean : Value → Checked Bool
  | .boolean b => .ok b
  | .integer n => numberAsBoolean n (-wordBound ≤ n ∧ n < wordBound)
  | .number x =>
      match x.toInt? with
      | some n => numberAsBoolean n (-wordBound < n ∧ n < wordBound)
      | none => complain .notBoolean
  | .text s =>
      let word := lowerAscii s
      if trueWords.contains word then .ok true
      else if falseWords.contains word then .ok false
      else complain .unclearBoolean
  | _ => complain .notBoolean

open Checked in
/-- One of the words that stand for the given values. -/
def Value.asOneOf {α : Type} (choices : List (String × α)) : Value → Checked α
  | .text s =>
      match choices.lookup s with
      | some a => .ok a
      | none => complain (.notOneOf (choices.map Prod.fst))
  | _ => complain (.notOneOf (choices.map Prod.fst))

/-- The checks of the items of a list, each at its index. -/
def Checked.items {α : Type} (item : Value → Checked α) (values : List Value) :
    Checked (List α) :=
  Checked.all (values.zipIdx.map fun (v, i) => Checked.under (toString i) (item v))

open Checked in
/-- A list of what `item` checks. -/
def Value.asListOf {α : Type} (item : Value → Checked α) : Value → Checked (List α)
  | .list values => items item values
  | _ => complain .notList

open Checked in
/-- A table with arbitrary keys and what `item` checks under each of them. -/
def Value.asTableOf {α : Type} (item : Value → Checked α) :
    Value → Checked (List (String × α))
  | .table entries =>
      Checked.all (entries.map fun (key, v) => (under key (item v)).map fun a => (key, a))
  | _ => complain .notTable

open Checked in
/-- A table with arbitrary keys and values. -/
def Value.asTable : Value → Checked Table
  | .table t => .ok t
  | _ => complain .notTable

open Checked in
/-- A record of the given name, whose fields `check` reads from a table. -/
def Value.asRecord {α : Type} (name : String) (check : Table → Checked α) : Value → Checked α
  | .table t => check t
  | _ => complain (.notRecord name)

/-- A list that has to keep a rule as a whole. -/
def Checked.obeying {α : Type} (x : Checked α) (broken : α → Option String) : Checked α :=
  match x with
  | .ok a =>
      match broken a with
      | none => .ok a
      | some message => Checked.complain (.rule message)
  | .error issues => .error issues

theorem Checked.obeying_eq_ok_iff {α : Type} {x : Checked α} {broken : α → Option String}
    {a : α} :
    x.obeying broken = .ok a ↔ x = .ok a ∧ broken a = none := by
  cases x with
  | error issues => simp [obeying]
  | ok b =>
      cases hb : broken b with
      | none =>
          simp only [obeying, hb, Except.ok.injEq, iff_self_and]
          rintro rfl
          exact hb
      | some message =>
          simp only [obeying, hb, complain, reduceCtorEq, Except.ok.injEq, false_iff, not_and]
          rintro rfl h
          rw [hb] at h
          cases h

namespace Table

/-- The first of the given keys that there is, with its value. -/
def find? (t : Table) (keys : List String) : Option (String × Value) :=
  keys.findSome? fun key => (List.lookup key t).map fun v => (key, v)

/-- The field `name`, which has to be there, perhaps under one of the other names. -/
def required {α : Type} (t : Table) (name : String) (check : Value → Checked α)
    (others : List String := []) : Checked α :=
  match t.find? (name :: others) with
  | some (key, v) => Checked.under key (check v)
  | none => Checked.under name (Checked.complain .missing)

/-- The field `name`, perhaps under one of the other names, or `default` if it is not there. -/
def optional {α : Type} (t : Table) (name : String) (default : α) (check : Value → Checked α)
    (others : List String := []) : Checked α :=
  match t.find? (name :: others) with
  | some (key, v) => Checked.under key (check v)
  | none => .ok default

end Table

end AbiBridge
