/-
  File:      OpenVac/Lib/Csv.lean
  Subject:   Comma-separated values by RFC 4180.

  * `records` -- the decoder: a machine over the characters, strict about quotes and line ends.
  * `quotedField`, `recordText` -- fields in quotes, records of them.
  * `records_recordText` -- what is decoded from a record, its line end and the rest.
  * `records_groupsText` -- what is decoded from groups of records with blank lines between them.
-/
import OpenVac.Lib.CodePoints

namespace Csv

open CodePoints

/-! ## 1. The decoder -/

/-- Where the decoder stands. -/
inductive Place where
  /-- Before a record, where the file may end. -/
  | recordStart
  /-- Before a field of a record that has begun. -/
  | fieldStart
  | unquoted
  | quoted
  /-- After a quote within a quoted field: it ends the field, or a second one follows. -/
  | quoteSeen
  /-- After the CR of a line end. -/
  | carriageReturn

/-- One character outside quotes: a separator ends the field, a line end the record. -/
def outside (next : Place → List Points → Points → Option (List (List Points)))
    (record : List Points) (field : Points) (c : CodePoint) : Option (List (List Points)) :=
  if c = ',' then next .fieldStart (record ++ [field]) []
  else if c = '\r' then next .carriageReturn (record ++ [field]) []
  else if c = '\n' ∨ c = '"' then none
  else next .unquoted record (field ++ [c])

/-- The records of the rest of a file, where those fields of a record and that part of a field
    are read. The line end after the last record may be missing. -/
def recordsFrom : Place → List Points → Points → Points → Option (List (List Points))
  | .recordStart, _, _, [] => some []
  | .fieldStart, record, field, [] => some [record ++ [field]]
  | .unquoted, record, field, [] => some [record ++ [field]]
  | .quoteSeen, record, field, [] => some [record ++ [field]]
  | .quoted, _, _, [] => none
  | .carriageReturn, _, _, [] => none
  | .recordStart, record, field, c :: rest =>
      if c = '"' then recordsFrom .quoted record field rest
      else outside (fun place record field => recordsFrom place record field rest) record field c
  | .fieldStart, record, field, c :: rest =>
      if c = '"' then recordsFrom .quoted record field rest
      else outside (fun place record field => recordsFrom place record field rest) record field c
  | .unquoted, record, field, c :: rest =>
      outside (fun place record field => recordsFrom place record field rest) record field c
  | .quoted, record, field, c :: rest =>
      if c = '"' then recordsFrom .quoteSeen record field rest
      else recordsFrom .quoted record (field ++ [c]) rest
  | .quoteSeen, record, field, c :: rest =>
      if c = '"' then recordsFrom .quoted record (field ++ [c]) rest
      else if c = ',' then recordsFrom .fieldStart (record ++ [field]) [] rest
      else if c = '\r' then recordsFrom .carriageReturn (record ++ [field]) [] rest
      else none
  | .carriageReturn, record, _, c :: rest =>
      if c = '\n' then (recordsFrom .recordStart [] [] rest).map (record :: ·) else none

/-- The records of a file. -/
def records (file : Points) : Option (List (List Points)) := recordsFrom .recordStart [] [] file

/-! ## 2. Fields in quotes -/

/-- `value.replaceAll('"', '""')`. -/
def doubledQuotes (value : Points) : Points :=
  replaceAll [.scalar '"'] [.scalar '"', .scalar '"'] value

/-- A field in quotes, its quotes doubled. -/
def quotedField (value : Points) : Points :=
  .scalar '"' :: (doubledQuotes value ++ [.scalar '"'])

/-- A record of quoted fields. -/
def recordText (fields : List Points) : Points :=
  List.intercalate [.scalar ','] (fields.map quotedField)

def lineEnd : Points := ['\r', '\n']

/-- The characters of a quoted field, to its closing quote. -/
theorem recordsFrom_body (record : List Points) (value field rest : Points) :
    recordsFrom .quoted record field
        (doubledQuotes value ++ .scalar '"' :: rest) =
      recordsFrom .quoteSeen record (field ++ value) rest := by
  unfold doubledQuotes
  rw [replaceAll_single]
  induction value generalizing field with
  | nil =>
    rw [List.append_nil]
    rfl
  | cons c value ih =>
    have hnext : field ++ c :: value = field ++ [c] ++ value := by simp
    rw [List.flatMap_cons, List.append_assoc, hnext, ← ih (field ++ [c])]
    by_cases hc : c = .scalar '"'
    · rw [if_pos hc, hc]
      rfl
    · rw [if_neg hc, List.singleton_append]
      exact if_neg hc

theorem recordsFrom_field_comma (record : List Points) (value rest : Points) :
    recordsFrom .fieldStart record [] (quotedField value ++ .scalar ',' :: rest) =
      recordsFrom .fieldStart (record ++ [value]) [] rest := by
  have hbody := recordsFrom_body record value [] (.scalar ',' :: rest)
  have htext : quotedField value ++ .scalar ',' :: rest =
      .scalar '"' :: (doubledQuotes value ++
        .scalar '"' :: .scalar ',' :: rest) := by simp [quotedField]
  rw [htext]
  exact hbody

theorem recordsFrom_field_end (record : List Points) (value rest : Points) :
    recordsFrom .fieldStart record [] (quotedField value ++ (lineEnd ++ rest)) =
      (records rest).map ((record ++ [value]) :: ·) := by
  have hbody := recordsFrom_body record value [] (lineEnd ++ rest)
  have htext : quotedField value ++ (lineEnd ++ rest) =
      .scalar '"' :: (doubledQuotes value ++
        .scalar '"' :: (lineEnd ++ rest)) := by simp [quotedField]
  rw [htext]
  exact hbody

/-- The fields of a record after the first ones. -/
theorem recordsFrom_fields (record : List Points) {fields : List Points} (hne : fields ≠ [])
    (rest : Points) :
    recordsFrom .fieldStart record [] (recordText fields ++ (lineEnd ++ rest)) =
      (records rest).map ((record ++ fields) :: ·) := by
  induction fields generalizing record with
  | nil => exact absurd rfl hne
  | cons value fields ih =>
    cases fields with
    | nil =>
      have htext : recordText [value] = quotedField value := by
        simp [recordText, List.intercalate]
      rw [htext]
      exact recordsFrom_field_end record value rest
    | cons other more =>
      have htext : recordText (value :: other :: more) =
          quotedField value ++ .scalar ',' :: recordText (other :: more) := by
        simp [recordText, List.intercalate]
      have hall : record ++ value :: other :: more = record ++ [value] ++ other :: more := by
        simp
      rw [htext, List.append_assoc, List.cons_append, recordsFrom_field_comma,
        ih (record ++ [value]) (by simp), hall]

/-- **A record in quotes, its line end and the rest** are decoded to the record and the rest. -/
theorem records_recordText {fields : List Points} (hne : fields ≠ []) (rest : Points) :
    records (recordText fields ++ (lineEnd ++ rest)) = (records rest).map (fields :: ·) := by
  have hquote : ∃ text, recordText fields ++ (lineEnd ++ rest) = .scalar '"' :: text := by
    cases fields with
    | nil => exact absurd rfl hne
    | cons value fields =>
      cases fields with
      | nil => exact ⟨_, by simp [recordText, List.intercalate, quotedField]; rfl⟩
      | cons other more =>
        exact ⟨_, by simp [recordText, List.intercalate, quotedField]; rfl⟩
  have hfields := recordsFrom_fields [] hne rest
  obtain ⟨text, htext⟩ := hquote
  rw [htext] at hfields ⊢
  exact hfields

/-- A line without a field is a record of the one field that is empty. -/
theorem records_blank (rest : Points) :
    records (lineEnd ++ rest) = (records rest).map ([[]] :: ·) := rfl

/-! ## 3. Groups of records -/

/-- Records, a line each. -/
def recordsText (group : List (List Points)) : Points :=
  List.intercalate lineEnd (group.map recordText)

/-- Groups of records with a blank line between two of them. -/
def groupsText (groups : List (List (List Points))) : Points :=
  List.intercalate (lineEnd ++ lineEnd) (groups.map recordsText)

theorem records_recordsText {group : List (List Points)} (hne : group ≠ [])
    (hfields : ∀ fields ∈ group, fields ≠ []) (rest : Points) :
    records (recordsText group ++ (lineEnd ++ rest)) = (records rest).map (group ++ ·) := by
  induction group with
  | nil => exact absurd rfl hne
  | cons fields group ih =>
    have hfirst : fields ≠ [] := hfields fields List.mem_cons_self
    cases group with
    | nil =>
      have htext : recordsText [fields] = recordText fields := by
        simp [recordsText, List.intercalate]
      rw [htext, records_recordText hfirst]
      rfl
    | cons other more =>
      have htext : recordsText (fields :: other :: more) =
          recordText fields ++ (lineEnd ++ recordsText (other :: more)) := by
        simp [recordsText, List.intercalate]
      have htail := ih (by simp) fun rows h => hfields rows (List.mem_cons_of_mem _ h)
      rw [htext, List.append_assoc, List.append_assoc, records_recordText hfirst, htail,
        Option.map_map]
      rfl

/-- **Groups of quoted records** are decoded to the records, a record of one empty field for each
    blank line. -/
theorem records_groupsText {groups : List (List (List Points))} (hne : groups ≠ [])
    (hgroups : ∀ group ∈ groups, group ≠ [] ∧ ∀ fields ∈ group, fields ≠ []) :
    records (groupsText groups ++ lineEnd) = some (List.intercalate [[[]]] groups) := by
  induction groups with
  | nil => exact absurd rfl hne
  | cons group groups ih =>
    obtain ⟨hgroup, hfields⟩ := hgroups group List.mem_cons_self
    cases groups with
    | nil =>
      have htext : groupsText [group] ++ lineEnd = recordsText group ++ (lineEnd ++ []) := by
        simp [groupsText, List.intercalate]
      rw [htext, records_recordsText hgroup hfields]
      simp [records, recordsFrom, List.intercalate]
    | cons other more =>
      have htext : groupsText (group :: other :: more) ++ lineEnd =
          recordsText group ++
            (lineEnd ++ (lineEnd ++ (groupsText (other :: more) ++ lineEnd))) := by
        simp [groupsText, List.intercalate]
      have htail := ih (by simp) fun rows h => hgroups rows (List.mem_cons_of_mem _ h)
      rw [htext, records_recordsText hgroup hfields, records_blank, htail]
      simp [List.intercalate]

end Csv
