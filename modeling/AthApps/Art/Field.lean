import AthApps.Art.Smatch

/-!
# Looking up a field

`FieldFind` of `art/Field.c` finds a register field by its name, either in the
whole table or, where the table was put into a hash table, in one bucket of it.
The bucket is that of the field name as it is written, while `Smatch` compares
more liberally and also takes a register that has no field name.  Memory does not
run out here; where it does there is no hash table.
-/

set_option autoImplicit false

namespace AthApps.Art

open AthApps.Lib
open List hiding Vector

structure Field where
  registerName : Bytes
  fieldName : Bytes
  address : UInt32
  low : Int
  high : Int
  deriving DecidableEq

def mHash : Nat := 500

/-- `toupper` of a signed character. -/
def toUpper (c : UInt8) : Int :=
  if 97 ≤ c ∧ c ≤ 122 then (c.toNat : Int) - 32
  else if c < 128 then c.toNat
  else (c.toNat : Int) - 256

variable (fields : List Field) (name : Bytes)

def fieldHashKey : Fin mHash :=
  let key := (name.take 12).foldl (fun key c => key + (toUpper c - 65)) 0
  if negative : key < 0 then ⟨0, by decide⟩
  else if large : key ≥ (mHash : Int) then ⟨mHash - 1, by decide⟩
  else ⟨key.toNat, by omega⟩

abbrev Buckets : Type := Vector (List Field) mHash

def emptyBuckets : Buckets := Vector.replicate mHash []

def fieldHashCreate : Buckets :=
  fields.foldl (fun fh field =>
    fh.set (fieldHashKey field.fieldName) (fh[fieldHashKey field.fieldName] ++ [field])) emptyBuckets

/-- The static variables; `pointer` tells tables apart that have the same content. -/
structure Selection where
  pointer : Nat
  fields : List Field
  fhGood : Bool
  fh : Buckets

def nothingSelected : Selection := ⟨0, [], false, emptyBuckets⟩

def Selection.fieldSelect (selection : Selection) (table : Nat × List Field) : Selection :=
  if selection.pointer ≠ table.1 ∧ selection.fields.length ≠ table.2.length then
    ⟨table.1, table.2, true, fieldHashCreate table.2⟩
  else selection

structure Bits where
  address : UInt32
  low : Int
  high : Int
  deriving DecidableEq

/-- Some files have the bits in the wrong order. -/
def Field.bits (field : Field) : Bits :=
  if field.low ≤ field.high then ⟨field.address, field.low, field.high⟩
  else ⟨field.address, field.high, field.low⟩

def Field.isBoth (rname fname : Bytes) (field : Field) : Bool :=
  smatch rname field.registerName && smatch fname field.fieldName

def Field.isEither (field : Field) : Bool :=
  smatch name field.fieldName || (smatch name field.registerName && smatch [] field.fieldName)

/-- The loop over the entries of a bucket; what the pointers point to stays where nothing is found. -/
def searchBucket (test : Field → Bool) (bucket : List Field) (old : Bits) : Bool × Bits :=
  match bucket.find? test with
  | some field => (true, field.bits)
  | none => (false, old)

def searchTable (test : Field → Bool) (fields : List Field) : Bool × Bits :=
  match fields.find? test with
  | some field => (true, field.bits)
  | none => (false, ⟨0, 0, 0⟩)

/-- The test that an entry has to pass, and the name that is hashed. -/
def wanted : (Field → Bool) × Bytes :=
  match name.dropWhile fun c => c ≠ 46 with
  | _ :: fname => (Field.isBoth (name.takeWhile fun c => c ≠ 46) fname, fname)
  | [] => (Field.isEither name, name)

def Selection.fieldFind (selection : Selection) (name : Bytes) (old : Bits) : Bool × Bits :=
  if selection.fhGood then
    searchBucket (wanted name).1 selection.fh[fieldHashKey (wanted name).2] old
  else searchTable (wanted name).1 selection.fields

theorem fieldHashCreate_bucket (key : Fin mHash) :
    (fieldHashCreate fields)[key] = fields.filter fun field => fieldHashKey field.fieldName = key := by
  have all : ∀ (fields : List Field) (fh : Buckets),
      (fields.foldl (fun fh field =>
        fh.set (fieldHashKey field.fieldName) (fh[fieldHashKey field.fieldName] ++ [field])) fh)[key] =
        fh[key] ++ fields.filter fun field => fieldHashKey field.fieldName = key := by
    intro fields
    induction fields with
    | nil =>
      intro fh
      simp
    | cons field rest ih =>
      intro fh
      rw [foldl_cons, ih]
      by_cases same : fieldHashKey field.fieldName = key
      · subst same
        simp
      · have other : (fieldHashKey field.fieldName).val ≠ key.val := fun equal =>
          same (Fin.ext equal)
        simp [same, Fin.getElem_fin, Vector.getElem_set_ne _ _ other]
  rw [fieldHashCreate, all]
  simp [emptyBuckets, Fin.getElem_fin]

theorem find_bucket (key : Fin mHash) (test : Field → Bool) :
    (fieldHashCreate fields)[key].find? test =
      fields.find? fun field => decide (fieldHashKey field.fieldName = key) && test field := by
  rw [fieldHashCreate_bucket, find?_filter]
  congr 1
  funext field
  rw [Bool.decide_and, Bool.decide_eq_true, Bool.decide_eq_true]

def Selection.Hashed (selection : Selection) : Prop :=
  selection.fhGood = true → selection.fh = fieldHashCreate selection.fields

theorem Selection.Hashed.select {selection : Selection} (hashed : selection.Hashed)
    (table : Nat × List Field) : (selection.fieldSelect table).Hashed := by
  unfold Selection.fieldSelect
  split
  · exact fun _ => rfl
  · exact hashed

theorem selected_hashed (tables : List (Nat × List Field)) :
    (tables.foldl Selection.fieldSelect nothingSelected).Hashed := by
  have all : ∀ (tables : List (Nat × List Field)) (selection : Selection), selection.Hashed →
      (tables.foldl Selection.fieldSelect selection).Hashed := by
    intro tables
    induction tables with
    | nil => exact fun _ hashed => hashed
    | cons table rest ih => exact fun _ hashed => ih _ (hashed.select table)
  exact all tables nothingSelected fun good => Bool.noConfusion good

/-! ## Which entries have a name, and where they are filed -/

def SameName (text1 text2 : Bytes) : Prop :=
  (text1 = [] ↔ text2 = []) ∧ normal text1 = normal text2

/-- Both parts of a name with a dot; otherwise the field, or a register whose field name is empty. -/
def Named (field : Field) : Prop :=
  match name.dropWhile fun c => c ≠ 46 with
  | _ :: fname =>
    SameName (name.takeWhile fun c => c ≠ 46) field.registerName ∧ SameName fname field.fieldName
  | [] => SameName name field.fieldName ∨ (SameName name field.registerName ∧ field.fieldName = [])

/-- The field name in a name, or all of it. -/
def fieldPart : Bytes :=
  match name.dropWhile fun c => c ≠ 46 with
  | _ :: fname => fname
  | [] => name

def letterSum : Int := (name.take 12).foldl (fun sum c => sum + (toUpper c - 65)) 0

/-- The first twelve letters of two names have the same sum, or sums at the same end of the table. -/
def FiledTogether (name1 name2 : Bytes) : Prop :=
  letterSum name1 = letterSum name2 ∨ (letterSum name1 ≤ 0 ∧ letterSum name2 ≤ 0) ∨
    (499 ≤ letterSum name1 ∧ 499 ≤ letterSum name2)

/-- No entry has the name and the caller expects zeros; or the first entry that has it is filed with
it; or the first one that has the name and is filed with it comes later, with the same bits. -/
inductive Agreeing (old : Bits) : Prop
  | absent (none : ∀ field ∈ fields, ¬Named name field) (zeros : old = ⟨0, 0, 0⟩)
  | filed (front : List Field) (first : Field) (back : List Field)
      (split : fields = front ++ first :: back) (before : ∀ field ∈ front, ¬Named name field)
      (named : Named name first) (together : FiledTogether first.fieldName (fieldPart name))
  | twin (front : List Field) (first : Field) (between : List Field) (second : Field)
      (back : List Field) (split : fields = front ++ first :: (between ++ second :: back))
      (before : ∀ field ∈ front, ¬Named name field) (named : Named name first)
      (apart : ¬FiledTogether first.fieldName (fieldPart name))
      (passed : ∀ field ∈ between, Named name field → ¬FiledTogether field.fieldName (fieldPart name))
      (again : Named name second) (together : FiledTogether second.fieldName (fieldPart name))
      (same : second.bits = first.bits)

theorem fieldHashKey_together (name1 name2 : Bytes) :
    fieldHashKey name1 = fieldHashKey name2 ↔ FiledTogether name1 name2 := by
  have place : ∀ name, ((fieldHashKey name).val : Int) = max 0 (min 499 (letterSum name)) := by
    intro name
    unfold fieldHashKey letterSum
    obtain ⟨key, same⟩ : ∃ key : Int,
        (name.take 12).foldl (fun sum c => sum + (toUpper c - 65)) 0 = key := ⟨_, rfl⟩
    simp only [same, mHash]
    split
    · simp only
      omega
    · split
      · simp only
        omega
      · simp only
        omega
  have first := place name1
  have second := place name2
  rw [Fin.ext_iff]
  unfold FiledTogether
  omega

theorem smatch_sameName (text1 text2 : Bytes) :
    smatch text1 text2 = true ↔ SameName text1 text2 := smatch_iff

theorem wanted_named (field : Field) : (wanted name).1 field = true ↔ Named name field := by
  have blank : SameName [] field.fieldName ↔ field.fieldName = [] := by
    constructor
    · exact fun same => same.1.mp rfl
    · intro empty
      rw [empty]
      exact ⟨Iff.rfl, rfl⟩
  unfold wanted Named
  cases name.dropWhile fun c => c ≠ 46 with
  | nil => simp only [Field.isEither, Bool.or_eq_true, Bool.and_eq_true, smatch_sameName, blank]
  | cons dot fname => simp only [Field.isBoth, Bool.and_eq_true, smatch_sameName]

theorem wanted_fieldPart : (wanted name).2 = fieldPart name := by
  unfold wanted fieldPart
  cases name.dropWhile fun c => c ≠ 46 <;> rfl

/-- Names without blanks that are compared as equal are filed together. -/
theorem SameName.together {name1 name2 : Bytes} (same : SameName name1 name2)
    (solid1 : ∀ c ∈ name1, space c = false) (solid2 : ∀ c ∈ name2, space c = false) :
    FiledTogether name1 name2 := by
  have lower : ∀ name : Bytes, (∀ c ∈ name, space c = false) → normal name = name.map toLower := by
    intro name solid
    have whole : skip name = name := by
      cases name with
      | nil => rfl
      | cons c rest => exact skip_cons_of_not (solid c (by simp))
    rw [normal, whole]
    clear whole
    induction name with
    | nil => rfl
    | cons c rest ih =>
      rw [trimmed_cons_of_not (solid c (by simp)), map_cons,
        ih fun d member => solid d (by simp [member])]
  have folded : ∀ c, toUpper (toLower c) = toUpper c := by
    intro c
    unfold toUpper toLower
    simp only [UInt8.le_iff_toNat_le, UInt8.lt_iff_toNat_lt]
    split
    · rename_i capital
      rw [UInt8.toNat_add]
      simp only [UInt8.reduceToNat] at capital ⊢
      split <;> split <;> omega
    · rfl
  have sum : ∀ name : Bytes, letterSum name = letterSum (name.map toLower) := by
    intro name
    rw [letterSum, letterSum, ← map_take, foldl_map]
    simp only [folded]
  have forms := same.2
  rw [lower name1 solid1, lower name2 solid2] at forms
  exact Or.inl (by rw [sum name1, sum name2, forms])

/-- The search through the hash table of any selected table agrees with the plain one exactly under
the condition. -/
theorem fieldFind_hashed (tables : List (Nat × List Field)) (name : Bytes) (old : Bits) :
    let selection := tables.foldl Selection.fieldSelect nothingSelected
    selection.fhGood = true →
      (selection.fieldFind name old = { selection with fhGood := false }.fieldFind name old ↔
        Agreeing selection.fields name old) := by
  intro selection good
  have hashed : selection.fh = fieldHashCreate selection.fields := selected_hashed tables good
  obtain ⟨bucket, shape⟩ : ∃ bucket : Field → Bool, bucket = fun field =>
      decide (fieldHashKey field.fieldName = fieldHashKey (wanted name).2) && (wanted name).1 field :=
    ⟨_, rfl⟩
  have place : ∀ field, bucket field = true ↔
      FiledTogether field.fieldName (fieldPart name) ∧ Named name field := by
    intro field
    rw [shape, Bool.and_eq_true, decide_eq_true_iff, fieldHashKey_together, wanted_fieldPart,
      wanted_named]
  have test := wanted_named name
  rw [Selection.fieldFind, if_pos good, Selection.fieldFind, if_neg (by simp), searchBucket, hashed,
    find_bucket, ← shape, searchTable]
  constructor
  · intro agree
    cases plain : selection.fields.find? (wanted name).1 with
    | none =>
      have absent := find?_eq_none.mp plain
      rw [plain, find?_eq_none.mpr fun field member found =>
        absent field member ((test field).mpr ((place field).mp found).2)] at agree
      exact .absent (fun field member named => absent field member ((test field).mpr named))
        (congrArg Prod.snd agree)
    | some first =>
      obtain ⟨found, front, back, split, before⟩ := find?_eq_some_iff_append.mp plain
      have unnamed : ∀ field ∈ front, ¬Named name field := by
        intro field member named
        have failed := before field member
        rw [(test field).mpr named] at failed
        cases failed
      have named := (test first).mp found
      by_cases together : FiledTogether first.fieldName (fieldPart name)
      · exact .filed front first back split unnamed named together
      · cases inBucket : selection.fields.find? bucket with
        | none =>
          rw [plain, inBucket] at agree
          cases congrArg Prod.fst agree
        | some second =>
          rw [plain, inBucket] at agree
          rw [split, find?_append, find?_eq_none.mpr fun field member found =>
            unnamed field member ((place field).mp found).2, Option.none_or,
            find?_cons_of_neg fun found => together ((place first).mp found).1] at inBucket
          obtain ⟨found, between, rest, split', passed⟩ := find?_eq_some_iff_append.mp inBucket
          obtain ⟨filed, again⟩ := (place second).mp found
          refine .twin front first between second rest (by rw [split, split']) unnamed named together
            ?_ again filed (congrArg Prod.snd agree)
          intro field member here together
          have failed := passed field member
          rw [(place field).mpr ⟨together, here⟩] at failed
          cases failed
  · have skip : ∀ {front rest : List Field}, (∀ field ∈ front, ¬Named name field) →
        (front ++ rest).find? (wanted name).1 = rest.find? (wanted name).1 := by
      intro front rest unnamed
      rw [find?_append, find?_eq_none.mpr fun field member found =>
        unnamed field member ((test field).mp found), Option.none_or]
    have skipBucket : ∀ {front rest : List Field}, (∀ field ∈ front, Named name field →
        ¬FiledTogether field.fieldName (fieldPart name)) →
        (front ++ rest).find? bucket = rest.find? bucket := by
      intro front rest apart
      rw [find?_append, find?_eq_none.mpr fun field member found =>
        apart field member ((place field).mp found).2 ((place field).mp found).1, Option.none_or]
    intro agreeing
    cases agreeing with
    | absent none zeros =>
      rw [find?_eq_none.mpr fun field member found =>
          none field member ((place field).mp found).2, zeros,
        find?_eq_none.mpr fun field member found => none field member ((test field).mp found)]
    | filed front first back split before named together =>
      simp only [split]
      rw [skip before, skipBucket fun field member named => absurd named (before field member),
        find?_cons_of_pos ((place first).mpr ⟨together, named⟩),
        find?_cons_of_pos ((test first).mpr named)]
    | twin front first between second back split before named apart passed again together same =>
      simp only [split]
      rw [skip before, skipBucket fun field member named => absurd named (before field member),
        find?_cons_of_neg fun found => apart ((place first).mp found).1, skipBucket passed,
        find?_cons_of_pos ((place second).mpr ⟨together, again⟩),
        find?_cons_of_pos ((test first).mpr named)]
      exact congrArg (true, ·) same

/-- A table with the register `ab` that has no field name. -/
def blankField : Field := ⟨[97, 98], [], 5, 0, 1⟩

theorem fieldFind_blank :
    (nothingSelected.fieldSelect (1, [blankField])).fieldFind [97, 98] ⟨0, 0, 0⟩ =
        (false, ⟨0, 0, 0⟩) ∧
      { nothingSelected.fieldSelect (1, [blankField]) with fhGood := false }.fieldFind [97, 98]
        ⟨0, 0, 0⟩ = (true, ⟨5, 0, 1⟩) := by
  decide

def blankTable : List (Nat × List Field) := [(1, [blankField, ⟨[97, 98], [67, 68], 6, 3, 2⟩])]

/-- The field is called `CD`, and `Ab.cD` is asked for. -/
theorem fieldFind_hashed_case :
    (blankTable.foldl Selection.fieldSelect nothingSelected).fieldFind (letters "Ab.cD") ⟨0, 0, 0⟩ =
      { blankTable.foldl Selection.fieldSelect nothingSelected with
        fhGood := false }.fieldFind (letters "Ab.cD") ⟨0, 0, 0⟩ := by
  have cd : SameName [99, 68] [67, 68] := (smatch_sameName _ _).mp (by decide)
  have blank : ¬SameName [99, 68] [] := fun same => absurd (same.1.mpr rfl) (by decide)
  apply (fieldFind_hashed blankTable (letters "Ab.cD") ⟨0, 0, 0⟩ rfl).mpr
  refine .filed [blankField] ⟨[97, 98], [67, 68], 6, 3, 2⟩ [] rfl ?_ ?_
    (cd.together (by decide) (by decide))
  · intro field member named
    rw [mem_singleton.mp member] at named
    exact blank named.2
  · exact ⟨(smatch_sameName _ _).mp (by decide), cd⟩

end AthApps.Art
