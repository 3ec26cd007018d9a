import NginxFastcgi.Fcgi.NameValue
import NginxFastcgi.Fcgi.ReadClients

/-!
# Decoding parameters from a stream

`ReadParams` takes lengths and strings from an input stream until it ends.  It
returns exactly the pairs in front of the first incomplete one.
-/

namespace NginxFastcgi.Fcgi

open Foundation
open Foundation.Framing
open Foundation.Loop

namespace Reader

/-- How `ReadParams` returns when `left` follows the last pair. -/
def ReadsParams (ended : Reader → Request → Prop) (entries : List (List UInt8))
    (left : List UInt8) : Option (Int × Params × Reader × Request) → Prop
  | none => cutPair left = .malformed
  | some (status, params, after, sent) => params.entries = entries ∧
      ((left = [] ∧ status = 0 ∧ ended after sent) ∨
        (left ≠ [] ∧ cutPair left = .incomplete ∧ status = -1 ∧
          ∃ closed, ended closed sent ∧ after = closed.setError fcgxParamsError))

section Supplies

variable {fill : FillProc} {rest : List UInt8 → Reader → Request → Prop}
  {ended : Reader → Request → Prop} (supplies : Supplies fill rest ended) {data : List UInt8}
  {reader : Reader} {request : Request} (params : Params)
include supplies

theorem Supplies.readLength_some {first : UInt8} {behind : List UInt8} {length : Nat}
    (held : rest data reader request) (cutEq : lengthFrom first data = some (length, behind)) :
    ∃ after sent, readLength fill first reader request = some (some length, after, sent) ∧
      rest behind after sent := by
  unfold lengthFrom at cutEq
  split at cutEq
  · rename_i marked
    split at cutEq
    · rename_i enough
      cases cutEq
      obtain ⟨str, after, sent, getEq, strEq, next⟩ := supplies.getStr held 3
      rcases next with ⟨-, heldAfter⟩ | ⟨few, -⟩
      · refine ⟨after, sent, ?_, heldAfter⟩
        have same : longLength first str = longLength first data := by
          rw [strEq]
          match data, enough with
          | _ :: _ :: _ :: _, _ => rfl
        have whole : str.length = 3 := by
          rw [strEq, List.length_take, Nat.min_eq_left enough]
        rw [readLength, if_pos marked, getEq, Option.map_some, ← same]
        dsimp only
        rw [if_pos whole]
        rfl
      · exact absurd few (Nat.not_lt_of_le enough)
    · contradiction
  · rename_i unmarked
    cases cutEq
    exact ⟨reader, request, by rw [readLength, if_neg unmarked], held⟩

theorem Supplies.readLength_none {first : UInt8} (held : rest data reader request)
    (cutEq : lengthFrom first data = none) :
    ∃ after sent, readLength fill first reader request = some (none, after, sent) ∧
      ended after sent := by
  unfold lengthFrom at cutEq
  split at cutEq
  · rename_i marked
    split at cutEq
    · contradiction
    · rename_i short
      obtain ⟨str, after, sent, getEq, strEq, next⟩ := supplies.getStr held 3
      rcases next with ⟨enough, -⟩ | ⟨few, isOver⟩
      · exact absurd enough short
      · refine ⟨after, sent, ?_, isOver⟩
        rw [readLength, if_pos marked, getEq, Option.map_some]
        dsimp only
        rw [if_neg (by rw [strEq, List.length_take]; omega)]
  · contradiction

/-- The bytes of one length. -/
theorem Supplies.length_some {behind : List UInt8} {length : Nat}
    (held : rest data reader request) (cutEq : cutLength data = some (length, behind)) :
    ∃ first middle now after sent, getChar fill reader request = some (some first, middle, now) ∧
      readLength fill first middle now = some (some length, after, sent) ∧
      rest behind after sent := by
  cases data with
  | nil => contradiction
  | cons first more =>
      obtain ⟨middle, now, charEq, heldMore⟩ := supplies.getChar_cons held
      obtain ⟨after, sent, lengthEq, heldAfter⟩ := supplies.readLength_some heldMore cutEq
      exact ⟨first, middle, now, after, sent, charEq, lengthEq, heldAfter⟩

theorem Supplies.length_none (held : rest data reader request) (nonempty : data ≠ [])
    (cutEq : cutLength data = none) :
    ∃ first middle now after sent, getChar fill reader request = some (some first, middle, now) ∧
      readLength fill first middle now = some (none, after, sent) ∧ ended after sent := by
  cases data with
  | nil => contradiction
  | cons first more =>
      obtain ⟨middle, now, charEq, heldMore⟩ := supplies.getChar_cons held
      obtain ⟨after, sent, lengthEq, isOver⟩ := supplies.readLength_none heldMore cutEq
      exact ⟨first, middle, now, after, sent, charEq, lengthEq, isOver⟩

/-! ## One turn -/

theorem Supplies.paramsTurn_nil (held : rest [] reader request) :
    ∃ after sent, readParamsTurn fill (params, reader, request) =
        some (.done (0, params, after, sent)) ∧ ended after sent := by
  obtain ⟨after, sent, charEq, isOver⟩ := supplies.getChar_nil held
  refine ⟨after, sent, ?_, isOver⟩
  simp only [readParamsTurn, charEq, Option.bind_eq_bind, Option.bind_some]

theorem Supplies.paramsTurn_lengths {body : List UInt8} {nameLen valueLen : Nat}
    (held : rest data reader request) (cutEq : cutLengths data = some (nameLen, valueLen, body)) :
    ∃ after sent, readParamsTurn fill (params, reader, request) =
        readNameValue fill params nameLen valueLen after sent ∧ rest body after sent := by
  obtain ⟨afterName, firstEq, secondEq⟩ := cutLengths_eq_some.mp cutEq
  obtain ⟨_, _, _, _, _, charEq, lengthEq, heldName⟩ := supplies.length_some held firstEq
  obtain ⟨_, _, _, after, sent, secondCharEq, secondLengthEq, heldBody⟩ :=
    supplies.length_some heldName secondEq
  refine ⟨after, sent, ?_, heldBody⟩
  simp only [readParamsTurn, charEq, lengthEq, secondCharEq, secondLengthEq, Option.bind_eq_bind,
    Option.bind_some]

theorem Supplies.paramsTurn_noLengths (held : rest data reader request) (nonempty : data ≠ [])
    (cutEq : cutLengths data = none) :
    ∃ after sent, readParamsTurn fill (params, reader, request) =
        some (paramsError params after sent) ∧ ended after sent := by
  cases firstEq : cutLength data with
  | none =>
      obtain ⟨_, _, _, after, sent, charEq, lengthEq, isOver⟩ :=
        supplies.length_none held nonempty firstEq
      refine ⟨after, sent, ?_, isOver⟩
      simp only [readParamsTurn, charEq, lengthEq, Option.bind_eq_bind, Option.bind_some]
  | some cut =>
      rcases cut with ⟨nameLen, afterName⟩
      have secondEq : cutLength afterName = none := by
        simpa [cutLengths, firstEq] using cutEq
      obtain ⟨_, _, _, _, _, charEq, lengthEq, heldName⟩ := supplies.length_some held firstEq
      by_cases empty : afterName = []
      · rw [empty] at heldName
        obtain ⟨after, sent, endEq, isOver⟩ := supplies.getChar_nil heldName
        refine ⟨after, sent, ?_, isOver⟩
        simp only [readParamsTurn, charEq, lengthEq, endEq, Option.bind_eq_bind,
          Option.bind_some]
      · obtain ⟨_, _, _, after, sent, secondCharEq, secondLengthEq, isOver⟩ :=
          supplies.length_none heldName empty secondEq
        refine ⟨after, sent, ?_, isOver⟩
        simp only [readParamsTurn, charEq, lengthEq, secondCharEq, secondLengthEq,
          Option.bind_eq_bind, Option.bind_some]

theorem Supplies.nameValue_some {nameLen valueLen : Nat} (held : rest data reader request)
    (fits : nameLen + valueLen + 2 < 2 ^ 31) (enough : nameLen + valueLen ≤ data.length) :
    ∃ after sent, readNameValue fill params nameLen valueLen reader request =
        some (.again (params.putParam (NameValue.entry ⟨data.take nameLen,
          (data.drop nameLen).take valueLen⟩), after, sent)) ∧
      rest (data.drop (nameLen + valueLen)) after sent := by
  obtain ⟨name, middle, now, nameEq, nameIs, next⟩ := supplies.getStr held nameLen
  rcases next with ⟨-, heldName⟩ | ⟨few, -⟩
  · obtain ⟨value, after, sent, valueEq, valueIs, last⟩ := supplies.getStr heldName valueLen
    rcases last with ⟨-, heldValue⟩ | ⟨few, -⟩
    · rw [List.drop_drop] at heldValue
      have nameLength : name.length = nameLen := by
        rw [nameIs, List.length_take]
        omega
      have valueLength : value.length = valueLen := by
        rw [valueIs, List.length_take, List.length_drop]
        omega
      refine ⟨after, sent, ?_, heldValue⟩
      rw [readNameValue, if_neg (Nat.not_le_of_lt fits)]
      simp only [nameEq, valueEq, nameLength, valueLength, Option.bind_eq_bind, Option.bind_some,
        ne_eq, not_true_eq_false, if_false]
      rw [nameIs, valueIs]
      rfl
    · rw [List.length_drop] at few
      omega
  · omega

theorem Supplies.nameValue_none {nameLen valueLen : Nat} (held : rest data reader request)
    (fits : nameLen + valueLen + 2 < 2 ^ 31) (short : data.length < nameLen + valueLen) :
    ∃ after sent, readNameValue fill params nameLen valueLen reader request =
        some (paramsError params after sent) ∧ ended after sent := by
  obtain ⟨name, middle, now, nameEq, nameIs, next⟩ := supplies.getStr held nameLen
  rcases next with ⟨wholeName, heldName⟩ | ⟨few, isOver⟩
  · obtain ⟨value, after, sent, valueEq, valueIs, last⟩ := supplies.getStr heldName valueLen
    rcases last with ⟨wholeValue, -⟩ | ⟨few, isOver⟩
    · rw [List.length_drop] at wholeValue
      omega
    · have nameLength : name.length = nameLen := by
        rw [nameIs, List.length_take]
        omega
      have valueLength : value.length ≠ valueLen := by
        rw [valueIs, List.length_take]
        omega
      refine ⟨after, sent, ?_, isOver⟩
      rw [readNameValue, if_neg (Nat.not_le_of_lt fits)]
      simp only [nameEq, valueEq, nameLength, valueLength, Option.bind_eq_bind, Option.bind_some,
        ne_eq, not_true_eq_false, not_false_eq_true, if_false, if_true]
  · have nameLength : name.length ≠ nameLen := by
      rw [nameIs, List.length_take]
      omega
    refine ⟨middle, now, ?_, isOver⟩
    rw [readNameValue, if_neg (Nat.not_le_of_lt fits)]
    simp only [nameEq, nameLength, Option.bind_eq_bind, Option.bind_some, ne_eq,
      not_false_eq_true, if_true]

theorem Supplies.paramsTurn_frame {pair : NameValue} {size : Nat}
    (held : rest data reader request) (cutEq : cutPair data = .frame pair size) :
    ∃ after sent, readParamsTurn fill (params, reader, request) =
        some (.again (params.putParam pair.entry, after, sent)) ∧
      rest (data.drop size) after sent := by
  obtain ⟨nameLen, valueLen, body, lengthsEq, fits, enough, rfl, rfl⟩ := cutPair_eq_frame.mp cutEq
  obtain ⟨middle, now, turnEq, heldBody⟩ :=
    supplies.paramsTurn_lengths params held lengthsEq
  obtain ⟨after, sent, pairEq, heldAfter⟩ :=
    supplies.nameValue_some params heldBody fits enough
  refine ⟨after, sent, turnEq.trans pairEq, ?_⟩
  have bodyEq := List.suffix_iff_eq_drop.mp (cutLengths_suffix lengthsEq).1
  rw [← List.drop_drop, ← bodyEq]
  exact heldAfter

theorem Supplies.paramsTurn_malformed (held : rest data reader request)
    (cutEq : cutPair data = .malformed) :
    readParamsTurn fill (params, reader, request) = none := by
  obtain ⟨nameLen, valueLen, body, lengthsEq, long⟩ := cutPair_eq_malformed.mp cutEq
  obtain ⟨middle, now, turnEq, -⟩ :=
    supplies.paramsTurn_lengths params held lengthsEq
  rw [turnEq, readNameValue, if_pos long]

theorem Supplies.paramsTurn_incomplete (held : rest data reader request) (nonempty : data ≠ [])
    (cutEq : cutPair data = .incomplete) :
    ∃ after sent, readParamsTurn fill (params, reader, request) =
        some (paramsError params after sent) ∧ ended after sent := by
  unfold cutPair at cutEq
  split at cutEq
  · rename_i lengthsEq
    exact supplies.paramsTurn_noLengths params held nonempty lengthsEq
  · rename_i nameLen valueLen body lengthsEq
    split at cutEq
    · contradiction
    · rename_i fits
      split at cutEq
      · rename_i short
        obtain ⟨middle, now, turnEq, heldBody⟩ :=
          supplies.paramsTurn_lengths params held lengthsEq
        obtain ⟨after, sent, errorEq, isOver⟩ :=
          supplies.nameValue_none params heldBody (Nat.lt_of_not_le fits) short
        exact ⟨after, sent, turnEq.trans errorEq, isOver⟩
      · contradiction

/-! ## The whole stream -/

/-- `ReadParams` puts the pairs of the stream behind the parameters that are
there.  It succeeds if nothing follows the pairs, and fails with a parameter
error if a pair is incomplete. -/
theorem Supplies.readParams {pairs : List NameValue} {left : List UInt8}
    (held : rest data reader request) (parses : pairFormat.Parses data pairs left) :
    ReadsParams ended (params.entries ++ pairs.map NameValue.entry) left
      (Reader.readParams fill params reader request) := by
  have enough : data.length < reader.pending request + 1 :=
    Nat.lt_succ_of_le (supplies.length_le held)
  unfold Reader.readParams
  generalize reader.pending request + 1 = fuel at enough
  induction parses generalizing params reader request fuel with
  | @stop input stuck =>
      cases fuel with
      | zero => exact absurd enough (Nat.not_lt_zero _)
      | succ fuel =>
          rw [List.map_nil, List.append_nil]
          by_cases empty : input = []
          · rw [empty] at held
            obtain ⟨after, sent, turnEq, isOver⟩ := supplies.paramsTurn_nil params held
            simp only [run, turnEq]
            exact ⟨rfl, Or.inl ⟨empty, rfl, isOver⟩⟩
          · cases cutEq : cutPair input with
            | incomplete =>
                obtain ⟨after, sent, turnEq, isOver⟩ :=
                  supplies.paramsTurn_incomplete params held empty cutEq
                simp only [run, turnEq, paramsError]
                exact ⟨rfl, Or.inr ⟨empty, cutEq, rfl, after, isOver, rfl⟩⟩
            | malformed =>
                simp only [run, supplies.paramsTurn_malformed params held cutEq]
                exact cutEq
            | frame pair size => exact absurd cutEq (stuck pair size)
  | @frame input left pairs pair size nextEq _ inductionHypothesis =>
      cases fuel with
      | zero => exact absurd enough (Nat.not_lt_zero _)
      | succ fuel =>
          obtain ⟨after, sent, turnEq, heldAfter⟩ :=
            supplies.paramsTurn_frame params held nextEq
          have later := inductionHypothesis (params.putParam pair.entry) heldAfter fuel
          rw [Params.entries_putParam, List.append_assoc, List.singleton_append,
            ← List.map_cons] at later
          simp only [run, turnEq]
          apply later
          have positive := pairFormat.size_pos nextEq
          have inside := pairFormat.size_le nextEq
          rw [List.length_drop]
          omega

end Supplies

end Reader

end NginxFastcgi.Fcgi
