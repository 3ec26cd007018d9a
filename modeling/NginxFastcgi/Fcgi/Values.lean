import Mathlib.Algebra.Order.BigOperators.Group.List
import Mathlib.Data.List.Perm.Subperm
import NginxFastcgi.Fcgi.FillBuffer
import NginxFastcgi.Fcgi.NameValue

/-!
# Answers to management queries

`FCGI_GET_VALUES` asks for variables by name.  The answer is built in 64 bytes,
which suffice for each of the three known variables once.
-/

namespace NginxFastcgi.Fcgi

open Foundation.Framing

/-- A name that ends at the `=` of its entry. -/
structure NameValue.Plain (pair : NameValue) : Prop where
  no_equals : equalsSign ∉ pair.name
  no_null : 0 ∉ pair.name

/-- What is said about one variable. -/
def answer (pair : NameValue) : Option NameValue :=
  (Reader.variableValue pair.name).map fun value => ⟨pair.name, [value]⟩

def answers (pairs : List NameValue) : List NameValue :=
  pairs.filterMap answer

/-- The bytes behind the header of an answer. -/
def answerBytes (pairs : List NameValue) : List UInt8 :=
  (answers pairs).flatMap NameValue.bytes

/-- The names that have an answer. -/
def variableNames : List (List UInt8) :=
  [Reader.maxConnsName, Reader.maxReqsName, Reader.mpxsConnsName]

section Answers

variable {pair : NameValue} {pairs : List NameValue}

theorem answers_cons (pair : NameValue) (pairs : List NameValue) :
    answers (pair :: pairs) = (answer pair).toList ++ answers pairs := by
  rw [answers, List.filterMap_cons]
  cases answer pair <;> rfl

theorem answerBytes_cons (pair : NameValue) (pairs : List NameValue) :
    answerBytes (pair :: pairs) =
      (answer pair).toList.flatMap NameValue.bytes ++ answerBytes pairs := by
  rw [answerBytes, answers_cons, List.flatMap_append]
  rfl

theorem entryName_entry (plain : pair.Plain) : Reader.entryName pair.entry = some pair.name := by
  have name : pair.entry.takeWhile (· ≠ equalsSign) = pair.name := by
    rw [NameValue.entry, List.takeWhile_append_of_pos]
    · simp
    · intro c member
      apply decide_eq_true
      intro same
      exact plain.no_equals (same ▸ member)
  rw [Reader.entryName, name, if_neg plain.no_null]

theorem mem_variableNames {name : List UInt8} {value : UInt8}
    (known : Reader.variableValue name = some value) : name ∈ variableNames := by
  unfold Reader.variableValue at known
  unfold variableNames
  split at known
  · simp [*]
  · split at known
    · simp [*]
    · split at known
      · simp [*]
      · contradiction

theorem length_of_mem_variableNames {name : List UInt8} (known : name ∈ variableNames) :
    name.length < 128 := by
  have bounded : ∀ name ∈ variableNames, name.length < 128 := by decide
  exact bounded name known

/-- An answer as the library prints it. -/
theorem bytes_answer {name : List UInt8} (known : name ∈ variableNames) (value : UInt8) :
    NameValue.bytes ⟨name, [value]⟩ = UInt8.ofNat name.length :: 1 :: name ++ [value] := by
  have short := length_of_mem_variableNames known
  simp [NameValue.bytes, buildNameValueHeader, lengthBytes, short]

theorem length_bytes_answer {name : List UInt8} (known : name ∈ variableNames) (value : UInt8) :
    (NameValue.bytes ⟨name, [value]⟩).length = name.length + 3 := by
  rw [bytes_answer known]
  simp

theorem fits_answers : ∀ pair ∈ answers pairs, pair.Fits := by
  intro answered member
  obtain ⟨asked, -, answerEq⟩ := List.mem_filterMap.mp member
  obtain ⟨value, valueEq, rfl⟩ := Option.map_eq_some_iff.mp answerEq
  have short := length_of_mem_variableNames (mem_variableNames valueEq)
  unfold NameValue.Fits
  simp only [List.length_singleton]
  omega

/-- The loop prints the answers, as long as there is room for them. -/
theorem valuesLoop_entries (plain : ∀ pair ∈ pairs, pair.Plain) {response : List UInt8}
    (room : response.length ≤ 55) :
    Reader.valuesLoop (pairs.map NameValue.entry) response =
      if (response ++ answerBytes pairs).length ≤ 55 then some (response ++ answerBytes pairs)
      else none := by
  induction pairs generalizing response with
  | nil =>
      have nothing : answerBytes [] = [] := rfl
      rw [nothing, List.append_nil, if_pos room]
      rfl
  | cons pair pairs inductionHypothesis =>
      rw [List.forall_mem_cons] at plain
      rw [List.map_cons, Reader.valuesLoop, entryName_entry plain.1, Option.bind_some,
        answerBytes_cons, answer]
      cases valueEq : Reader.variableValue pair.name with
      | none => exact inductionHypothesis plain.2 room
      | some value =>
          have known := mem_variableNames valueEq
          have bytesEq := bytes_answer known value
          have length := length_bytes_answer known value
          have answerEq : (Option.map (fun value => (⟨pair.name, [value]⟩ : NameValue))
              (some value)).toList.flatMap NameValue.bytes =
                NameValue.bytes ⟨pair.name, [value]⟩ := by
            simp
          dsimp only
          rw [answerEq, ← List.append_assoc, List.append_assoc response, ← bytesEq]
          change (if 8 + response.length + pair.name.length + 4 > 64 then none else _) = _
          by_cases overrun : 8 + response.length + pair.name.length + 4 > 64
          · have tooLong : ¬ (response ++ NameValue.bytes ⟨pair.name, [value]⟩ ++
                answerBytes pairs).length ≤ 55 := by
              simp only [List.length_append, length]
              omega
            rw [if_pos overrun, if_neg tooLong]
          · rw [if_neg overrun]
            apply inductionHypothesis plain.2
            rw [List.length_append, length]
            omega

/-- The names that are answered are among those that were asked for. -/
theorem names_answers_sublist (pairs : List NameValue) :
    ((answers pairs).map NameValue.name).Sublist (pairs.map NameValue.name) := by
  induction pairs with
  | nil => exact List.Sublist.refl _
  | cons pair pairs inductionHypothesis =>
      rw [answers_cons, answer]
      cases Reader.variableValue pair.name with
      | none => exact inductionHypothesis.cons _
      | some value => exact inductionHypothesis.cons_cons _

/-- Each variable once takes 51 bytes. -/
theorem length_answerBytes_le (once : (pairs.map NameValue.name).Nodup) :
    (answerBytes pairs).length ≤ 51 := by
  have sum : (answerBytes pairs).length =
      (((answers pairs).map NameValue.name).map fun name => name.length + 3).sum := by
    rw [answerBytes, List.length_flatMap, List.map_map]
    congr 1
    apply List.map_congr_left
    intro answered member
    obtain ⟨asked, -, answerEq⟩ := List.mem_filterMap.mp member
    obtain ⟨value, valueEq, rfl⟩ := Option.map_eq_some_iff.mp answerEq
    exact length_bytes_answer (mem_variableNames valueEq) value
  have known : (answers pairs).map NameValue.name ⊆ variableNames := by
    intro name member
    obtain ⟨answered, memberAnswers, rfl⟩ := List.mem_map.mp member
    obtain ⟨asked, -, answerEq⟩ := List.mem_filterMap.mp memberAnswers
    obtain ⟨value, valueEq, rfl⟩ := Option.map_eq_some_iff.mp answerEq
    exact mem_variableNames valueEq
  obtain ⟨chosen, perm, sublist⟩ := (once.sublist (names_answers_sublist pairs)).subperm known
  have bounded := (sublist.map fun name => name.length + 3).sum_le_sum (fun _ _ => Nat.zero_le _)
  rw [sum, ← (perm.map fun name => name.length + 3).sum_eq]
  exact bounded.trans (by decide)

/-- The record with an answer. -/
def valuesRecord (response : List UInt8) (within : response.length ≤ 55) : Record where
  type := fcgiGetValuesResult
  requestId := fcgiNullRequestId
  content := response
  padding := List.replicate (alignInt8 response.length - response.length) 0
  requestId_lt := Record.nullRequestId_lt
  content_le := within.trans (by decide)
  padding_lt := by
    have close := alignInt8_lt (n := response.length) (by omega)
    rw [List.length_replicate]
    omega

theorem bytes_valuesRecord {response : List UInt8} (within : response.length ≤ 55) :
    (valuesRecord response within).bytes =
      (makeHeader fcgiGetValuesResult fcgiNullRequestId response.length
        (alignInt8 response.length - response.length)).bytes ++ response ++
          List.replicate (alignInt8 response.length - response.length) 0 := by
  rw [Record.bytes, Record.header, List.append_assoc]
  simp only [valuesRecord, List.length_replicate]

/-- The loop stays within the response. -/
theorem length_valuesLoop_le {entries : List (List UInt8)} {response final : List UInt8}
    (room : response.length ≤ 55) (loops : Reader.valuesLoop entries response = some final) :
    final.length ≤ 55 := by
  induction entries generalizing response with
  | nil =>
      cases loops
      exact room
  | cons entry entries inductionHypothesis =>
      obtain ⟨name, -, next⟩ := Option.bind_eq_some_iff.mp loops
      cases valueEq : Reader.variableValue name with
      | none =>
          rw [valueEq] at next
          exact inductionHypothesis room next
      | some value =>
          rw [valueEq] at next
          dsimp only at next
          split at next
          · contradiction
          · rename_i fits
            apply inductionHypothesis _ next
            change ¬ 8 + response.length + name.length + 4 > 64 at fits
            simp only [List.length_append, List.length_cons, List.length_nil]
            omega

/-- An answer is a record. -/
theorem bytes_ofFront_valuesResponse {entries : List (List UInt8)} {response : List UInt8}
    (answered : Reader.valuesResponse entries = some response) :
    (Record.ofFront response).bytes = response := by
  obtain ⟨final, loops, rfl⟩ := Option.map_eq_some_iff.mp answered
  have within := length_valuesLoop_le (Nat.zero_le _) loops
  have front := Record.ofFront_bytes_append (valuesRecord final within) []
  rw [List.append_nil, bytes_valuesRecord] at front
  rw [front, bytes_valuesRecord]

theorem valuesResponse_entries (plain : ∀ pair ∈ pairs, pair.Plain) :
    Reader.valuesResponse (pairs.map NameValue.entry) =
      if within : (answerBytes pairs).length ≤ 55 then
        some (valuesRecord (answerBytes pairs) within).bytes
      else
        none := by
  rw [Reader.valuesResponse, valuesLoop_entries plain (Nat.zero_le _), List.nil_append]
  by_cases within : (answerBytes pairs).length ≤ 55
  · rw [if_pos within, dif_pos within, Option.map_some, bytes_valuesRecord]
  · rw [if_neg within, dif_neg within, Option.map_none]

/-- The answer to a query that asks for no variable twice is a record, which
says about each known name what the library has to say, in the order of the
query. -/
theorem valuesResponse_of_query (plain : ∀ pair ∈ pairs, pair.Plain)
    (once : (pairs.map NameValue.name).Nodup) :
    ∃ record : Record, Reader.valuesResponse (pairs.map NameValue.entry) = some record.bytes ∧
      record.type = fcgiGetValuesResult ∧ record.requestId = fcgiNullRequestId ∧
      8 ∣ record.bytes.length ∧
      pairFormat.Parses record.content (answers pairs) [] := by
  have within : (answerBytes pairs).length ≤ 55 :=
    (length_answerBytes_le once).trans (by decide)
  have fits : (answerBytes pairs).length + 7 < 2 ^ 32 := by omega
  refine ⟨valuesRecord (answerBytes pairs) within, ?_, rfl, rfl, ?_, parses_pairs fits_answers⟩
  · rw [valuesResponse_entries plain, dif_pos within]
  · have content := le_alignInt8 fits
    have aligned := dvd_alignInt8 fits
    rw [Record.length_bytes]
    change 8 ∣ 8 + ((answerBytes pairs).length + (List.replicate _ _).length)
    rw [List.length_replicate, Nat.add_sub_cancel' content]
    exact Nat.dvd_add (dvd_refl 8) aligned

end Answers

end NginxFastcgi.Fcgi
