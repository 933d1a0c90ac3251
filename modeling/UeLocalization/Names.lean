import UeLocalization.Basic
import Mathlib.Data.Nat.Digits

/-!
# Measurement names

Every program reads a measurement's ids off its name. `isMeasNameContains` tests the prefix
`L3servingSINR3gpp_cell_` or `L3neighSINRListOf_UEID_`, and `parseServingMsg` or
`parseNeighMsg` reads two `%hd` fields with `sscanf`; unless both are read, both ids are `-1`,
that is `UINT16_MAX` (`classifyName`, which gives the `MeasName` the other modules start
from, and `RawIndMsgFormat1.classify` for a whole report).

`sscanf` is glibc's, on formats of ordinary characters and `%hd` (`sscanf`): an ordinary
character matches itself, and `%hd` skips blanks, takes an optional sign and at least one
digit, converts them with `strtol`, which saturates at `LONG_MIN` and `LONG_MAX`, and stores
`(short) value` into the `uint16_t` id (`scanShort`). The text one `%hd` reads is a
`ShortField`.

* `classifyName_fields`: a name made of a prefix, a field, the separator and a field, and then
  anything that does not start with a digit, is read with the two fields' values;
* `classifyName_valid_fields`: every name read with two valid ids is of that form;
* `classify_rawOfSamples`: a report whose names print UE `ue` and cell `cell` in decimal is
  read as `IndMsgFormat1.ofSamples`, the ids taken modulo `2^16`: UE `65536` is read as UE
  `0`, and an id `65535` as a failed read.
-/

namespace UeLoc

open F64 (num)

/-! ## `sscanf` -/

/-- `isspace` in the C locale: space, `\t`, `\n`, `\v`, `\f` and `\r`. -/
def isSpace (c : Char) : Bool := c.toNat == 32 || (9 ≤ c.toNat && c.toNat ≤ 13)

/-- The value of a run of decimal digits, read from the left as `strtol` does. -/
def digitsValue (ds : List Char) : Nat := ds.foldl (fun n d => 10 * n + (d.toNat - 48)) 0

/-- `strtol` on an optional minus and digits of value `n`: `n` or `-n`, saturated at
`LONG_MIN` and `LONG_MAX`. -/
def strtol (neg : Bool) (n : Nat) : Int :=
  if neg then max (-(n : Int)) (-2 ^ 63) else min (n : Int) (2 ^ 63 - 1)

/-- The optional sign of a number: whether it is `-`, and the text after it. -/
def signOf : List Char → Bool × List Char
  | [] => (false, [])
  | c :: t => if c = '-' then (true, t) else if c = '+' then (false, t) else (false, c :: t)

/-- `%hd` after the blanks: an optional sign and at least one digit, converted by `strtol` and
stored as `(short) value`; `none` is a matching failure. -/
def scanShort (s : List Char) : Option (BitVec 16 × List Char) :=
  let ds := (signOf s).2.takeWhile Char.isDigit
  if ds = [] then none
  else some (BitVec.ofInt 16 (strtol (signOf s).1 (digitsValue ds)),
    (signOf s).2.dropWhile Char.isDigit)

/-- A directive of a `scanf` format: an ordinary character, or `%hd`. -/
inductive ScanDirective where
  | lit (c : Char)
  | short
  deriving DecidableEq, Repr

/-- `sscanf(s, fmt, ...)`: the values its `%hd` directives store, in order, up to the first
failure. It returns their number (`EOF` at an input failure before the first, which no caller
tells apart). -/
def sscanf : List ScanDirective → List Char → List (BitVec 16)
  | [], _ => []
  | .lit _ :: _, [] => []
  | .lit c :: fmt, d :: s => if d = c then sscanf fmt s else []
  | .short :: fmt, s =>
    match scanShort (s.dropWhile isSpace) with
    | some (v, rest) => v :: sscanf fmt rest
    | none => []

/-- The ordinary characters of a text, as directives. -/
def lits (s : String) : List ScanDirective := s.toList.map .lit

/-- `"L3servingSINR3gpp_cell_%hd_UEID_%hd"`. -/
def servingFormat : List ScanDirective :=
  lits "L3servingSINR3gpp_cell_" ++ .short :: lits "_UEID_" ++ [.short]

/-- `"L3neighSINRListOf_UEID_%hd_of_Cell_%hd"`. -/
def neighFormat : List ScanDirective :=
  lits "L3neighSINRListOf_UEID_" ++ .short :: lits "_of_Cell_" ++ [.short]

/-! ## The parsers -/

/-- What `parseServingMsg` and `parseNeighMsg` return: the two values `sscanf` stores when it
returns 2, else `-1` for both ids, that is `UINT16_MAX`. -/
def parseIds (fmt : List ScanDirective) (info : Nat → Nat → InfoObj) (msg : List Char) :
    InfoObj :=
  match sscanf fmt msg with
  | [a, b] => info a.toNat b.toNat
  | _ => ⟨uint16Max, uint16Max⟩

/-- `parseServingMsg`: `sscanf(msg, "L3servingSINR3gpp_cell_%hd_UEID_%hd", &info.cellID,
&info.ueID)`. -/
def parseServingMsg : List Char → InfoObj := parseIds servingFormat fun cell ue => ⟨cell, ue⟩

/-- `parseNeighMsg`: `sscanf(msg, "L3neighSINRListOf_UEID_%hd_of_Cell_%hd", &info.ueID,
&info.cellID)`. -/
def parseNeighMsg : List Char → InfoObj := parseIds neighFormat fun ue cell => ⟨cell, ue⟩

/-- `isMeasNameContains(meas_name, name)`: `strncmp(meas_name, name, strlen(name)) == 0`, that
is `meas_name` starts with `name`. -/
def isMeasNameContains (measName name : List Char) : Bool := name.isPrefixOf measName

/-- The prefix every program tests a serving name by. -/
def servingPrefix : List Char := "L3servingSINR3gpp_cell_".toList

/-- The prefix every program tests a neighbor list's name by. -/
def neighPrefix : List Char := "L3neighSINRListOf_UEID_".toList

/-- How every `log_kpm_measurements` reads a name: a serving name and what `parseServingMsg`
makes of it, a neighbor list's name and what `parseNeighMsg` makes of it, or another. -/
def classifyName (name : List Char) : MeasName :=
  if isMeasNameContains name servingPrefix then .serving (parseServingMsg name)
  else if isMeasNameContains name neighPrefix then .neigh (parseNeighMsg name)
  else .other

/-- `meas_type_t` as it arrives: the characters of a name (`NAME_MEAS_TYPE`), or an id. -/
inductive RawMeasType where
  | name (s : List Char)
  | id (v : Nat)
  deriving DecidableEq, Repr

/-- A `meas_type_t` with its name read. -/
def RawMeasType.classify : RawMeasType → MeasType
  | .name s => .name (classifyName s)
  | .id v => .id v

/-- `kpm_ind_msg_format_1_t` as it arrives, its names not read yet. -/
structure RawIndMsgFormat1 where
  measInfoLst : List RawMeasType
  measDataLst : List (List MeasRecord)
  deriving DecidableEq, Repr

/-- A report with its names read: what every `log_kpm_measurements` works on. -/
def RawIndMsgFormat1.classify (msg : RawIndMsgFormat1) : IndMsgFormat1 :=
  ⟨msg.measInfoLst.map RawMeasType.classify, msg.measDataLst⟩

/-! ## What one `%hd` reads -/

/-- The text one `%hd` reads: blanks, an optional sign, and at least one digit. -/
structure ShortField where
  blanks : List Char
  sign : List Char
  digits : List Char
  blanks_space : ∀ c ∈ blanks, isSpace c = true
  sign_ok : sign = [] ∨ sign = ['-'] ∨ sign = ['+']
  digits_ne : digits ≠ []
  digits_digit : ∀ c ∈ digits, c.isDigit = true

/-- The field's characters. -/
def ShortField.text (f : ShortField) : List Char := f.blanks ++ f.sign ++ f.digits

/-- The `uint16_t` the field is stored as. -/
def ShortField.value (f : ShortField) : BitVec 16 :=
  BitVec.ofInt 16 (strtol (f.sign == ['-']) (digitsValue f.digits))

theorem isSpace_of_isDigit {c : Char} (h : c.isDigit = true) : isSpace c = false := by
  simp only [Char.isDigit, Bool.and_eq_true, decide_eq_true_eq] at h
  simp only [isSpace, Bool.or_eq_false_iff, beq_eq_false_iff_ne, Bool.and_eq_false_iff,
    decide_eq_false_iff_not, not_le]
  have h1 : 48 ≤ c.toNat := h.1
  omega

theorem takeWhile_of_head {p : Char → Bool} {l : List Char} (h : ∀ c ∈ l.head?, p c = false) :
    l.takeWhile p = [] ∧ l.dropWhile p = l := by
  cases l with
  | nil => simp
  | cons c l => simp [List.takeWhile_cons_of_neg, List.dropWhile_cons_of_neg, h c rfl]

/-- A field after its blanks, before any text that does not start with a digit, is read whole. -/
theorem scanShort_field (f : ShortField) {rest : List Char}
    (hrest : ∀ c ∈ rest.head?, c.isDigit = false) :
    scanShort (f.sign ++ f.digits ++ rest) = some (f.value, rest) := by
  obtain ⟨d, ds, hd⟩ := List.exists_cons_of_ne_nil f.digits_ne
  have hdig : d.isDigit = true := f.digits_digit d (by simp [hd])
  have hsign : signOf (f.sign ++ f.digits ++ rest) = (f.sign == ['-'], f.digits ++ rest) := by
    have h1 : d ≠ '-' := by rintro rfl; simp at hdig
    have h2 : d ≠ '+' := by rintro rfl; simp at hdig
    rcases f.sign_ok with h | h | h <;> simp [h, hd, signOf, h1, h2]
  have hrest' := takeWhile_of_head hrest
  simp only [scanShort, hsign, List.takeWhile_append_of_pos f.digits_digit,
    List.dropWhile_append_of_pos f.digits_digit, hrest'.1, hrest'.2, List.append_nil,
    f.digits_ne, if_false, ShortField.value]

/-- A `%hd` directive reads a whole field. -/
theorem sscanf_short (f : ShortField) (fmt : List ScanDirective) {rest : List Char}
    (hrest : ∀ c ∈ rest.head?, c.isDigit = false) :
    sscanf (.short :: fmt) (f.text ++ rest) = f.value :: sscanf fmt rest := by
  obtain ⟨d, ds, hd⟩ := List.exists_cons_of_ne_nil f.digits_ne
  have hd' : isSpace d = false := isSpace_of_isDigit (f.digits_digit d (by simp [hd]))
  have hhead : ∀ c ∈ (f.sign ++ f.digits ++ rest).head?, isSpace c = false := by
    rcases f.sign_ok with h | h | h <;> simp [h, hd, hd'] <;> decide
  have hskip : (f.text ++ rest).dropWhile isSpace = f.sign ++ f.digits ++ rest := by
    rw [ShortField.text, List.append_assoc, List.append_assoc,
      List.dropWhile_append_of_pos f.blanks_space, ← List.append_assoc]
    exact (takeWhile_of_head hhead).2
  simp only [sscanf, hskip, scanShort_field f hrest]

/-- Ordinary characters read themselves. -/
theorem sscanf_lits (p : List Char) (fmt : List ScanDirective) (s : List Char) :
    sscanf (p.map .lit ++ fmt) (p ++ s) = sscanf fmt s := by
  induction p with
  | nil => rfl
  | cons c p ih => simpa [sscanf] using ih

/-- `signOf` splits off a sign of at most one character. -/
theorem signOf_inv (s : List Char) : ∃ sg, (sg = [] ∨ sg = ['-'] ∨ sg = ['+']) ∧
    s = sg ++ (signOf s).2 ∧ (signOf s).1 = (sg == ['-']) := by
  match s with
  | [] => exact ⟨[], .inl rfl, rfl, rfl⟩
  | c :: t =>
    dsimp only [signOf]
    split_ifs with h1 h2
    · exact ⟨['-'], .inr (.inl rfl), by rw [h1]; rfl, rfl⟩
    · exact ⟨['+'], .inr (.inr rfl), by rw [h2]; rfl, rfl⟩
    · exact ⟨[], .inl rfl, rfl, rfl⟩

/-- What a `%hd` stored a value from is a field. -/
theorem scanShort_inv {s rest : List Char} {v : BitVec 16} (h : scanShort s = some (v, rest)) :
    ∃ f : ShortField, f.blanks = [] ∧ s = f.text ++ rest ∧ v = f.value := by
  dsimp only [scanShort] at h
  split at h
  · cases h
  · rename_i hne
    obtain ⟨rfl, rfl⟩ := Option.some.inj h |> Prod.mk.inj
    obtain ⟨sg, hok, hs, hneg⟩ := signOf_inv s
    refine ⟨⟨[], sg, _, by simp, hok, hne, fun c hc => List.mem_takeWhile_imp hc⟩, rfl, ?_,
      ?_⟩
    · conv_lhs => rw [hs, ← List.takeWhile_append_dropWhile Char.isDigit (signOf s).2]
      simp [ShortField.text]
    · rw [ShortField.value, hneg]

/-- What a `%hd` directive stored a value from is a field. -/
theorem sscanf_short_inv {fmt : List ScanDirective} {s : List Char} {v : BitVec 16}
    {vs : List (BitVec 16)} (h : sscanf (.short :: fmt) s = v :: vs) :
    ∃ f : ShortField, ∃ rest, s = f.text ++ rest ∧ v = f.value ∧ sscanf fmt rest = vs := by
  simp only [sscanf] at h
  split at h
  · rename_i v' rest hscan
    obtain ⟨rfl, rfl⟩ := List.cons.inj h
    obtain ⟨f, hb, hs, rfl⟩ := scanShort_inv hscan
    refine ⟨{ f with blanks := s.takeWhile isSpace, blanks_space := fun c hc =>
      List.mem_takeWhile_imp hc }, rest, ?_, rfl, rfl⟩
    conv_lhs => rw [← List.takeWhile_append_dropWhile isSpace s, hs]
    simp [ShortField.text, hb]
  · cases h

/-- Ordinary characters that let a later value be stored were read. -/
theorem sscanf_lits_inv (p : List Char) {fmt : List ScanDirective} {s : List Char}
    {vs : List (BitVec 16)} (h : sscanf (p.map .lit ++ fmt) s = vs) (hne : vs ≠ []) :
    ∃ s', s = p ++ s' ∧ sscanf fmt s' = vs := by
  induction p generalizing s with
  | nil => exact ⟨s, rfl, h⟩
  | cons c p ih =>
    match s with
    | [] => exact absurd h.symm (by simpa [sscanf] using hne)
    | d :: s =>
      simp only [List.map_cons, List.cons_append, sscanf] at h
      split at h
      · obtain ⟨s', rfl, hs'⟩ := ih h
        exact ⟨s', by simp [*], hs'⟩
      · exact absurd h.symm hne

/-! ### Decimal ids -/

/-- `%d` of `n`: its decimal digits, `0` for zero. -/
def decimal (n : Nat) : List Char :=
  if n = 0 then ['0'] else (Nat.digits 10 n).reverse.map Nat.digitChar

theorem digitChar_digit : ∀ d < 10, (Nat.digitChar d).isDigit = true ∧
    (Nat.digitChar d).toNat - 48 = d := by
  decide

theorem digitsValue_append_singleton (ds : List Char) (c : Char) :
    digitsValue (ds ++ [c]) = 10 * digitsValue ds + (c.toNat - 48) := by
  simp [digitsValue, List.foldl_append]

theorem digitsValue_digits (L : List Nat) (h : ∀ d ∈ L, d < 10) :
    digitsValue (L.reverse.map Nat.digitChar) = Nat.ofDigits 10 L := by
  induction L with
  | nil => rfl
  | cons d L ih =>
    rw [List.reverse_cons, List.map_append, List.map_singleton, digitsValue_append_singleton,
      ih fun e he => h e (List.mem_cons_of_mem d he),
      (digitChar_digit d (h d (List.mem_cons_self d L))).2, Nat.ofDigits_cons]
    ring

theorem digitsValue_decimal (n : Nat) : digitsValue (decimal n) = n := by
  unfold decimal
  split
  · subst n; rfl
  · rw [digitsValue_digits _ fun d hd => Nat.digits_lt_base (by norm_num) hd, Nat.ofDigits_digits]

theorem decimal_ne_nil (n : Nat) : decimal n ≠ [] := by
  unfold decimal
  split
  · simp
  · simpa using Nat.digits_ne_nil_iff_ne_zero.mpr ‹_›

theorem isDigit_of_mem_decimal {n : Nat} : ∀ c ∈ decimal n, c.isDigit = true := by
  unfold decimal
  split
  · simp only [List.mem_singleton, forall_eq]; rfl
  · simp only [List.mem_map, List.mem_reverse, forall_exists_index, and_imp]
    rintro _ d hd rfl
    exact (digitChar_digit d (Nat.digits_lt_base (by norm_num) hd)).1

/-- The field `%d` prints for `n`: no blanks, no sign, its decimal digits. -/
def ShortField.ofNat (n : Nat) : ShortField :=
  ⟨[], [], decimal n, by simp, .inl rfl, decimal_ne_nil n, fun _ => isDigit_of_mem_decimal _⟩

@[simp] theorem ShortField.ofNat_text (n : Nat) : (ShortField.ofNat n).text = decimal n := rfl

/-- A decimal id below `2^63` is stored modulo `2^16`. -/
theorem ShortField.ofNat_value {n : Nat} (h : n < 2 ^ 63) :
    (ShortField.ofNat n).value.toNat = n % 65536 := by
  simp only [ShortField.value, ShortField.ofNat, digitsValue_decimal, strtol]
  rw [BitVec.toNat_ofInt, if_neg (by decide), min_eq_left (by omega)]
  omega

/-! ## Names -/

theorem isMeasNameContains_append (p s : List Char) : isMeasNameContains (p ++ s) p = true :=
  List.isPrefixOf_iff_prefix.mpr (List.prefix_append p s)

/-- A name read with two valid ids had `sscanf` store both. -/
theorem parseIds_valid {fmt : List ScanDirective} {mk : Nat → Nat → InfoObj} {msg : List Char}
    (h : (parseIds fmt mk msg).valid) :
    ∃ a b, sscanf fmt msg = [a, b] ∧ parseIds fmt mk msg = mk a.toNat b.toNat := by
  unfold parseIds at h ⊢
  split at h
  · exact ⟨_, _, ‹_›, rfl⟩
  · simp [InfoObj.valid] at h

theorem head_of_sep {sep : List Char} (h : sep.head? = some '_') (x : List Char) :
    ∀ c ∈ (sep ++ x).head?, c.isDigit = false := by
  cases sep with
  | nil => simp at h
  | cons d t =>
    rintro c hc
    simp only [List.head?_cons, Option.some.injEq, List.cons_append, Option.mem_def] at h hc
    subst h hc
    decide

/-- A format of a prefix, `%hd`, a separator starting with `_` and `%hd` reads its two fields
back, followed by anything that does not start with a digit. -/
theorem sscanf_two (pre sep : List Char) (hsep : sep.head? = some '_')
    (f₁ f₂ : ShortField) {rest : List Char} (hrest : ∀ c ∈ rest.head?, c.isDigit = false) :
    sscanf (pre.map .lit ++ .short :: sep.map .lit ++ [.short])
      (pre ++ f₁.text ++ sep ++ f₂.text ++ rest) = [f₁.value, f₂.value] := by
  simp only [List.append_assoc, List.cons_append]
  rw [sscanf_lits, sscanf_short f₁ _ (head_of_sep hsep _), sscanf_lits,
    sscanf_short f₂ _ hrest]
  rfl

theorem servingFormat_eq :
    servingFormat = servingPrefix.map .lit ++ .short :: "_UEID_".toList.map .lit ++ [.short] :=
  rfl

theorem neighFormat_eq :
    neighFormat = neighPrefix.map .lit ++ .short :: "_of_Cell_".toList.map .lit ++ [.short] :=
  rfl

theorem isMeasNameContains_neigh_serving (x : List Char) :
    isMeasNameContains (neighPrefix ++ x) servingPrefix = false := by
  simp [isMeasNameContains, servingPrefix, neighPrefix, List.isPrefixOf]

theorem classifyName_serving_fields (f₁ f₂ : ShortField) (rest : List Char)
    (hrest : ∀ c ∈ rest.head?, c.isDigit = false) :
    classifyName (servingPrefix ++ f₁.text ++ "_UEID_".toList ++ f₂.text ++ rest) =
      .serving ⟨f₁.value.toNat, f₂.value.toNat⟩ := by
  rw [classifyName, if_pos (by simp only [List.append_assoc, isMeasNameContains_append])]
  simp only [parseServingMsg, parseIds, servingFormat_eq,
    sscanf_two servingPrefix "_UEID_".toList rfl f₁ f₂ hrest]

theorem classifyName_neigh_fields (f₁ f₂ : ShortField) (rest : List Char)
    (hrest : ∀ c ∈ rest.head?, c.isDigit = false) :
    classifyName (neighPrefix ++ f₁.text ++ "_of_Cell_".toList ++ f₂.text ++ rest) =
      .neigh ⟨f₂.value.toNat, f₁.value.toNat⟩ := by
  rw [classifyName, if_neg (by simp [List.append_assoc, isMeasNameContains_neigh_serving]),
    if_pos (by simp only [List.append_assoc, isMeasNameContains_append])]
  simp only [parseNeighMsg, parseIds, neighFormat_eq,
    sscanf_two neighPrefix "_of_Cell_".toList rfl f₁ f₂ hrest]

/-- A serving name, or a neighbor list's name, made of its prefix, a field, its separator and
a field, followed by a text that does not start with a digit, is read with the fields'
values. -/
theorem classifyName_fields (f₁ f₂ : ShortField) (rest : List Char)
    (hrest : ∀ c ∈ rest.head?, c.isDigit = false) :
    classifyName (servingPrefix ++ f₁.text ++ "_UEID_".toList ++ f₂.text ++ rest) =
        .serving ⟨f₁.value.toNat, f₂.value.toNat⟩ ∧
      classifyName (neighPrefix ++ f₁.text ++ "_of_Cell_".toList ++ f₂.text ++ rest) =
        .neigh ⟨f₂.value.toNat, f₁.value.toNat⟩ :=
  ⟨classifyName_serving_fields f₁ f₂ rest hrest,
    classifyName_neigh_fields f₁ f₂ rest hrest⟩

/-- The names of UE 13 in cell 2. -/
theorem classifyName_fields_ue_13 :
    (∀ c ∈ ([] : List Char).head?, c.isDigit = false) ∧
      (classifyName (servingPrefix ++ (ShortField.ofNat 2).text ++ "_UEID_".toList ++
          (ShortField.ofNat 13).text ++ []) =
        .serving ⟨(ShortField.ofNat 2).value.toNat, (ShortField.ofNat 13).value.toNat⟩ ∧
      classifyName (neighPrefix ++ (ShortField.ofNat 2).text ++ "_of_Cell_".toList ++
          (ShortField.ofNat 13).text ++ []) =
        .neigh ⟨(ShortField.ofNat 13).value.toNat, (ShortField.ofNat 2).value.toNat⟩) :=
  ⟨by simp, classifyName_fields _ _ [] (by simp)⟩

/-- A two-field format that stored both values read its prefix, a field, its separator and a
field. -/
theorem sscanf_two_inv (pre sep : List Char) {s : List Char} {a b : BitVec 16}
    (h : sscanf (pre.map .lit ++ .short :: sep.map .lit ++ [.short]) s = [a, b]) :
    ∃ f₁ f₂ : ShortField, ∃ rest, s = pre ++ f₁.text ++ sep ++ f₂.text ++ rest ∧
      a = f₁.value ∧ b = f₂.value := by
  simp only [List.append_assoc, List.cons_append] at h
  obtain ⟨s₁, rfl, h₁⟩ := sscanf_lits_inv pre h (List.cons_ne_nil _ _)
  obtain ⟨f₁, s₂, rfl, rfl, h₂⟩ := sscanf_short_inv h₁
  obtain ⟨s₃, rfl, h₃⟩ := sscanf_lits_inv sep h₂ (List.cons_ne_nil _ _)
  obtain ⟨f₂, rest, rfl, rfl, h₄⟩ := sscanf_short_inv h₃
  exact ⟨f₁, f₂, rest, by simp, rfl, rfl⟩

/-- A two-field parse with valid ids read its prefix, a field, its separator and a field. -/
theorem parseIds_valid_fields (pre sep : List Char) {mk : Nat → Nat → InfoObj}
    {msg : List Char}
    (h : (parseIds (pre.map .lit ++ .short :: sep.map .lit ++ [.short]) mk msg).valid) :
    ∃ f₁ f₂ : ShortField, ∃ rest, msg = pre ++ f₁.text ++ sep ++ f₂.text ++ rest ∧
      parseIds (pre.map .lit ++ .short :: sep.map .lit ++ [.short]) mk msg =
        mk f₁.value.toNat f₂.value.toNat := by
  obtain ⟨a, b, hs, he⟩ := parseIds_valid h
  obtain ⟨f₁, f₂, rest, rfl, rfl, rfl⟩ := sscanf_two_inv _ _ hs
  exact ⟨f₁, f₂, rest, rfl, he⟩

/-- Every name read with two valid ids is its prefix, a field, its separator, a field, and
anything after. -/
theorem classifyName_valid_fields {name : List Char} {info : InfoObj} (hv : info.valid) :
    (classifyName name = .serving info →
      ∃ f₁ f₂ : ShortField, ∃ rest,
        name = servingPrefix ++ f₁.text ++ "_UEID_".toList ++ f₂.text ++ rest ∧
        info = ⟨f₁.value.toNat, f₂.value.toNat⟩) ∧
    (classifyName name = .neigh info →
      ∃ f₁ f₂ : ShortField, ∃ rest,
        name = neighPrefix ++ f₁.text ++ "_of_Cell_".toList ++ f₂.text ++ rest ∧
        info = ⟨f₂.value.toNat, f₁.value.toNat⟩) := by
  constructor <;> intro h <;> unfold classifyName at h <;> split at h <;>
    (try split at h) <;> cases h
  · exact parseIds_valid_fields servingPrefix "_UEID_".toList hv
  · exact parseIds_valid_fields neighPrefix "_of_Cell_".toList hv

/-- The serving name of UE 13 in cell 2. -/
theorem classifyName_valid_fields_ue_13 :
    InfoObj.valid ⟨2, 13⟩ ∧
      (classifyName (servingPrefix ++ ['2'] ++ "_UEID_".toList ++ ['1', '3']) =
          .serving ⟨2, 13⟩ →
        ∃ f₁ f₂ : ShortField, ∃ rest,
          servingPrefix ++ ['2'] ++ "_UEID_".toList ++ ['1', '3'] =
            servingPrefix ++ f₁.text ++ "_UEID_".toList ++ f₂.text ++ rest ∧
          (⟨2, 13⟩ : InfoObj) = ⟨f₁.value.toNat, f₂.value.toNat⟩) :=
  ⟨by decide, (classifyName_valid_fields (by decide)).1⟩

/-! ## Reports of the E2 node -/

/-- The serving name of UE `ue` in cell `cell`, as the comment of `parseServingMsg` in
`kpm_monitor_xapp_v1.c` shows it:
`L3servingSINR3gpp_cell_2_UEID_13`. -/
def servingName (cell ue : Nat) : List Char :=
  servingPrefix ++ decimal cell ++ "_UEID_".toList ++ decimal ue

/-- The name of the neighbor list of UE `ue` in cell `cell`, as the comment of `parseNeighMsg`
in `kpm_monitor_xapp_v1.c` shows it: `L3neighSINRListOf_UEID_13_of_Cell_2`. -/
def neighName (ue cell : Nat) : List Char :=
  neighPrefix ++ decimal ue ++ "_of_Cell_".toList ++ decimal cell

/-- The report of UE `ue` in cell `cell` as it arrives: its serving SINR, then its neighbor
list of `(SINR, cell id)` pairs, under the names the comments show. -/
def rawOfSamples (ue cell : Nat) (sinr : ℚ) (neigh : List (ℚ × Nat)) : RawIndMsgFormat1 :=
  ⟨[.name (servingName cell ue), .name (neighName ue cell)],
    [[.real (num sinr)], neigh.flatMap fun n => [.real (num n.1), .integer n.2]]⟩

theorem classifyName_servingName {cell ue : Nat} (hcell : cell < 2 ^ 63) (hue : ue < 2 ^ 63) :
    classifyName (servingName cell ue) = .serving ⟨cell % 65536, ue % 65536⟩ := by
  have h := classifyName_serving_fields (.ofNat cell) (.ofNat ue) [] (by simp)
  rwa [List.append_nil, ShortField.ofNat_value hcell, ShortField.ofNat_value hue] at h

theorem classifyName_neighName {ue cell : Nat} (hue : ue < 2 ^ 63) (hcell : cell < 2 ^ 63) :
    classifyName (neighName ue cell) = .neigh ⟨cell % 65536, ue % 65536⟩ := by
  have h := classifyName_neigh_fields (.ofNat ue) (.ofNat cell) [] (by simp)
  rwa [List.append_nil, ShortField.ofNat_value hcell, ShortField.ofNat_value hue] at h

/-- The report of UE `ue` in cell `cell`, with ids below `2^63` printed in decimal, is read as
`IndMsgFormat1.ofSamples` of the ids modulo `2^16`. -/
theorem classify_rawOfSamples {ue cell : Nat} (hue : ue < 2 ^ 63) (hcell : cell < 2 ^ 63)
    (sinr : ℚ) (neigh : List (ℚ × Nat)) :
    (rawOfSamples ue cell sinr neigh).classify =
      IndMsgFormat1.ofSamples (ue % 65536) (cell % 65536) sinr neigh := by
  simp only [RawIndMsgFormat1.classify, rawOfSamples, List.map, RawMeasType.classify,
    classifyName_servingName hcell hue, classifyName_neighName hue hcell,
    IndMsgFormat1.ofSamples]

/-- UE `65549` is read as UE `13`. -/
theorem classify_rawOfSamples_alias :
    65549 < 2 ^ 63 ∧ 2 < 2 ^ 63 ∧
      (rawOfSamples 65549 2 10 [(5, 3)]).classify = IndMsgFormat1.ofSamples 13 2 10 [(5, 3)] :=
  ⟨by norm_num, by norm_num, classify_rawOfSamples (by norm_num) (by norm_num) 10 [(5, 3)]⟩

end UeLoc
