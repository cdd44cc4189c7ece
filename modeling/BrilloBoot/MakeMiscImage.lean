import BrilloBoot.AbData
import BrilloBoot.Ops
import BrilloBoot.Lib.Tokenizer
import Mathlib.Algebra.Group.Int.Defs
import Mathlib.Logic.Function.Basic

/-!
# The arguments of `make_misc_image`

`set_slots_from_tokens` and `parse_command_line_args` of `make_misc_image.cc`. The base library is
not in the repository: what the parser calls of it is a parameter (`BaseLibrary`), but for its
tokenizer, which skips empty tokens. The parser asks for six tokens and looks neither for more of
them nor for what was skipped, so that it accepts more than its grammar (`parsesGrammar_iff`).
-/

namespace BrilloBoot

open Tokenizer (getNext tokens tokens_of_getNext getNext_eq_none_iff tokens_eq_splitOn)

/-- The functions of the base library that the parser calls. -/
structure BaseLibrary where
  /-- `CommandLine::GetSwitchValueASCII`, from the value that the switch was given. -/
  getSwitchValueASCII : List Byte → List Byte
  /-- `StringToInt`, `none` when it does not convert. -/
  stringToInt : List Byte → Option ℤ

/-- A string of ASCII characters. -/
def IsAscii (string : List Byte) : Prop := ∀ c ∈ string, c < 0x80

/-- What the base library says of these functions. -/
structure BaseLibrary.Documented (base : BaseLibrary) : Prop where
  ascii : ∀ value, IsAscii value → base.getSwitchValueASCII value = value
  /-- A value of other characters is taken for none. -/
  notAscii : ∀ value, ¬IsAscii value → base.getSwitchValueASCII value = []
  /-- Only digits and a sign are converted. -/
  digits : ∀ string n, base.stringToInt string = some n → IsAscii string

section

variable (base : BaseLibrary)

/-- `','`. -/
def comma : Byte := 0x2C

/-- The step of `set_slots_from_tokens` for one attribute: its value, with the tokens behind it, or
the text of the error. -/
def nextAttribute (bound : ℤ) (rangeError : String) (st : List Byte) :
    Except String (ℤ × List Byte) :=
  match getNext comma st with
  | none => .error "ERROR: Need exactly 6 ab_metadata attribute values.\n"
  | some (token, st) =>
    match base.stringToInt token with
    | none => .error rangeError
    | some attributeValue =>
      if attributeValue < 0 ∨ attributeValue > bound then .error rangeError
      else .ok (attributeValue, st)

/-- The next value of a priority. -/
def nextPriority : List Byte → Except String (ℤ × List Byte) :=
  nextAttribute base 15 "ERROR: 0 <= [a,b]_priority <= 15\n"

/-- The next value of a number of tries. -/
def nextTriesRemaining : List Byte → Except String (ℤ × List Byte) :=
  nextAttribute base 7 "ERROR: 0 <= [a,b]_tries_remaining <= 7\n"

/-- The next value of a success flag. -/
def nextSuccessfulBoot : List Byte → Except String (ℤ × List Byte) :=
  nextAttribute base 1 "ERROR: 0 <= [a,b]_successful_boot <= 1\n"

/-- One round of the loop of `set_slots_from_tokens`, with the slot as the round leaves it. -/
def setSlot (st : List Byte) (slot : BubSlotData) : Except String (List Byte) × BubSlotData :=
  match nextPriority base st with
  | .error e => (.error e, slot)
  | .ok (attributeValue, st) =>
    let slot := { slot with priority := (BitVec.ofInt 8 attributeValue).setWidth 4 }
    match nextTriesRemaining base st with
    | .error e => (.error e, slot)
    | .ok (attributeValue, st) =>
      let slot := { slot with triesRemaining := (BitVec.ofInt 8 attributeValue).setWidth 3 }
      match nextSuccessfulBoot base st with
      | .error e => (.error e, slot)
      | .ok (attributeValue, st) =>
        (.ok st, { slot with successfulBoot := (BitVec.ofInt 8 attributeValue).setWidth 1 })

/-- `set_slots_from_tokens`: `.ok` with the tokens that are left for 1, and the text of the error
for 0. -/
def setSlotsFromTokens (st : List Byte) (metadata : Fin 2 → BubSlotData) :
    Except String (List Byte) × (Fin 2 → BubSlotData) :=
  match setSlot base st (metadata 0) with
  | (.error e, slot) => (.error e, Function.update metadata 0 slot)
  | (.ok st, slot) =>
    let metadata := Function.update metadata 0 slot
    match setSlot base st (metadata 1) with
    | (result, slot) => (result, Function.update metadata 1 slot)

/-- `parse_command_line_args`, for the values of its two switches: `.ok` with the name of the output
for 1. -/
def parseCommandLineArgs (abMetadata output : List Byte) (metadata : Fin 2 → BubSlotData) :
    Except String (List Byte) × (Fin 2 → BubSlotData) :=
  match setSlotsFromTokens base (base.getSwitchValueASCII abMetadata) metadata with
  | (.error e, metadata) => (.error e, metadata)
  | (.ok _, metadata) =>
    if output = [] then
      (.error "ERROR: Specify output as --output=/PATH/TO/MISC_IMAGE\n", metadata)
    else (.ok output, metadata)

end

/-! ## The grammar -/

/-- The bounds of the three attributes of a slot. -/
def slotBounds : List ℤ := [15, 7, 1]

/-- The strings convert to the values, and each value is within its bound. -/
def ConvertTo (base : BaseLibrary) (bounds : List ℤ) (strings : List (List Byte))
    (values : List ℤ) : Prop :=
  strings.map base.stringToInt = values.map some ∧
    List.Forall₂ (fun value bound => 0 ≤ value ∧ value ≤ bound) values bounds

/-- The string has six fields between commas, none is empty, and they have these values. -/
structure Grammar (base : BaseLibrary) (string : List Byte) (values : List ℤ) : Prop where
  fields : ∀ field ∈ string.splitOn comma, field ≠ []
  values : ConvertTo base (slotBounds ++ slotBounds) (string.splitOn comma) values

/-- The values in a slot. -/
def slotValues (slot : BubSlotData) : List ℤ :=
  [slot.priority.toNat, slot.triesRemaining.toNat, slot.successfulBoot.toNat]

/-- The parser accepts the strings of the grammar only, and leaves their values in the slots. -/
structure ParsesGrammar (base : BaseLibrary) (abMetadata output : List Byte)
    (metadata : Fin 2 → BubSlotData) : Prop where
  accepts_iff : (∃ fname, (parseCommandLineArgs base abMetadata output metadata).1 = .ok fname) ↔
    ∃ values, Grammar base abMetadata values
  slots : ∀ values, Grammar base abMetadata values →
    slotValues ((parseCommandLineArgs base abMetadata output metadata).2 0) ++
      slotValues ((parseCommandLineArgs base abMetadata output metadata).2 1) = values

/-! ## One slot -/

section

variable {base : BaseLibrary} {bound value : ℤ} {rangeError : String} {st st' : List Byte}
  {token : List Byte} {strings rest : List (List Byte)} {values : List ℤ} {slot : BubSlotData}
  {metadata : Fin 2 → BubSlotData}

/-- An attribute is read from the next token. -/
theorem tokens_of_nextAttribute (h : nextAttribute base bound rangeError st = .ok (value, st')) :
    ∃ token, tokens comma st = token :: tokens comma st' ∧ base.stringToInt token = some value ∧
      0 ≤ value ∧ value ≤ bound := by
  unfold nextAttribute at h
  cases hnext : getNext comma st with
  | none =>
    rw [hnext] at h
    cases h
  | some next =>
    obtain ⟨token, rest⟩ := next
    rw [hnext] at h
    dsimp only at h
    cases hvalue : base.stringToInt token with
    | none =>
      rw [hvalue] at h
      cases h
    | some attributeValue =>
      rw [hvalue] at h
      dsimp only at h
      split_ifs at h with hrange
      obtain ⟨rfl, rfl⟩ := Prod.mk.inj (Except.ok.inj h)
      exact ⟨token, tokens_of_getNext hnext, hvalue, by omega, by omega⟩

/-- A token that converts within the bound is an attribute. -/
theorem nextAttribute_of_tokens (rangeError : String) (htokens : tokens comma st = token :: rest)
    (hvalue : base.stringToInt token = some value) (hrange : 0 ≤ value ∧ value ≤ bound) :
    ∃ st', nextAttribute base bound rangeError st = .ok (value, st') ∧ tokens comma st' = rest := by
  cases hnext : getNext comma st with
  | none =>
    rw [getNext_eq_none_iff.mp hnext] at htokens
    cases htokens
  | some next =>
    obtain ⟨token', st'⟩ := next
    rw [tokens_of_getNext hnext] at htokens
    obtain ⟨rfl, hrest⟩ := List.cons.inj htokens
    refine ⟨st', ?_, hrest⟩
    unfold nextAttribute
    rw [hnext]
    dsimp only
    rw [hvalue]
    dsimp only
    rw [if_neg (by omega)]

/-- A value within its bound fits its bits. -/
theorem toNat_attribute {w : ℕ} (hw : w ≤ 8) (hrange : 0 ≤ value ∧ value < 2 ^ w) :
    (((BitVec.ofInt 8 value).setWidth w).toNat : ℤ) = value := by
  obtain ⟨n, rfl⟩ := Int.eq_ofNat_of_zero_le hrange.1
  have hn : n < 2 ^ w := by exact_mod_cast hrange.2
  have hbyte : n < 2 ^ 8 := lt_of_lt_of_le hn (Nat.pow_le_pow_right (by decide) hw)
  rw [BitVec.ofInt_natCast, BitVec.toNat_setWidth, BitVec.toNat_ofNat, Nat.mod_eq_of_lt hbyte,
    Nat.mod_eq_of_lt hn]

/-- A round that goes on has read its three attributes. -/
theorem exists_of_setSlot (h : (setSlot base st slot).1 = .ok st') :
    ∃ priority st₁ tries st₂ boot, nextPriority base st = .ok (priority, st₁) ∧
      nextTriesRemaining base st₁ = .ok (tries, st₂) ∧
      nextSuccessfulBoot base st₂ = .ok (boot, st') := by
  unfold setSlot at h
  split at h
  · cases h
  · rename_i priority st₁ hpriority
    dsimp only at h
    split at h
    · cases h
    · rename_i tries st₂ htries
      split at h
      · cases h
      · rename_i boot st₃ hboot
        obtain rfl := Except.ok.inj h
        exact ⟨priority, st₁, tries, st₂, boot, hpriority, htries, hboot⟩

/-- A round of the loop takes three tokens. -/
theorem tokens_of_setSlot (h : (setSlot base st slot).1 = .ok st') :
    ∃ strings values, tokens comma st = strings ++ tokens comma st' ∧
      ConvertTo base slotBounds strings values := by
  obtain ⟨priority, st₁, tries, st₂, boot, hpriority, htries, hboot⟩ := exists_of_setSlot h
  obtain ⟨t₁, ht₁, hv₁, hr₁⟩ := tokens_of_nextAttribute hpriority
  obtain ⟨t₂, ht₂, hv₂, hr₂⟩ := tokens_of_nextAttribute htries
  obtain ⟨t₃, ht₃, hv₃, hr₃⟩ := tokens_of_nextAttribute hboot
  refine ⟨[t₁, t₂, t₃], [priority, tries, boot], ?_, ?_, ?_⟩
  · rw [ht₁, ht₂, ht₃]
    rfl
  · simp only [List.map_cons, List.map_nil, hv₁, hv₂, hv₃]
  · exact .cons hr₁ (.cons hr₂ (.cons hr₃ .nil))

/-- A round of the loop takes three tokens that convert within their bounds. -/
theorem setSlot_of_tokens (slot : BubSlotData) (htokens : tokens comma st = strings ++ rest)
    (hvalues : ConvertTo base slotBounds strings values) :
    ∃ st' slot', setSlot base st slot = (.ok st', slot') ∧ tokens comma st' = rest ∧
      slotValues slot' = values := by
  obtain ⟨hmap, hrange⟩ := hvalues
  -- There are three values, and three strings.
  obtain _ | ⟨hr₁, _ | ⟨hr₂, _ | ⟨hr₃, _ | _⟩⟩⟩ := hrange
  obtain ⟨t₁, strings, rfl, hv₁, hmap⟩ := List.map_eq_cons_iff.mp hmap
  obtain ⟨t₂, strings, rfl, hv₂, hmap⟩ := List.map_eq_cons_iff.mp hmap
  obtain ⟨t₃, strings, rfl, hv₃, hmap⟩ := List.map_eq_cons_iff.mp hmap
  obtain rfl := List.map_eq_nil_iff.mp hmap
  obtain ⟨st₁, hpriority, ht₁⟩ :=
    nextAttribute_of_tokens "ERROR: 0 <= [a,b]_priority <= 15\n" htokens hv₁ hr₁
  obtain ⟨st₂, htries, ht₂⟩ :=
    nextAttribute_of_tokens "ERROR: 0 <= [a,b]_tries_remaining <= 7\n" ht₁ hv₂ hr₂
  obtain ⟨st₃, hboot, ht₃⟩ :=
    nextAttribute_of_tokens "ERROR: 0 <= [a,b]_successful_boot <= 1\n" ht₂ hv₃ hr₃
  unfold setSlot nextPriority nextTriesRemaining nextSuccessfulBoot
  rw [hpriority]
  dsimp only
  rw [htries]
  dsimp only
  rw [hboot]
  refine ⟨st₃, _, rfl, ht₃, ?_⟩
  unfold slotValues
  dsimp only
  rw [toNat_attribute (by decide) (by omega), toNat_attribute (by decide) (by omega),
    toNat_attribute (by decide) (by omega)]

/-! ## Both slots -/

/-- One row of strings after another. -/
theorem ConvertTo.append {bounds bounds' : List ℤ} {strings strings' : List (List Byte)}
    {values values' : List ℤ} (h : ConvertTo base bounds strings values)
    (h' : ConvertTo base bounds' strings' values') :
    ConvertTo base (bounds ++ bounds') (strings ++ strings') (values ++ values') := by
  refine ⟨?_, List.rel_append h.2 h'.2⟩
  rw [List.map_append, List.map_append, h.1, h'.1]

/-- The strings of two groups of bounds are two groups. -/
theorem ConvertTo.split {bounds bounds' : List ℤ}
    (h : ConvertTo base (bounds ++ bounds') strings values) :
    ∃ strings₁ strings₂ values₁ values₂, strings = strings₁ ++ strings₂ ∧
      values = values₁ ++ values₂ ∧ ConvertTo base bounds strings₁ values₁ ∧
      ConvertTo base bounds' strings₂ values₂ := by
  obtain ⟨hmap, hrange⟩ := h
  rw [← List.take_append_drop bounds.length values, List.map_append, List.map_eq_append_iff] at hmap
  obtain ⟨strings₁, strings₂, rfl, hmap₁, hmap₂⟩ := hmap
  exact ⟨strings₁, strings₂, _, _, rfl, (List.take_append_drop bounds.length values).symm,
    ⟨hmap₁, List.forall₂_take_append _ _ _ hrange⟩, ⟨hmap₂, List.forall₂_drop_append _ _ _ hrange⟩⟩

/-- There is a string for each bound. -/
theorem ConvertTo.length_strings {bounds : List ℤ} (h : ConvertTo base bounds strings values) :
    strings.length = bounds.length := by
  have hvalues := congrArg List.length h.1
  rw [List.length_map, List.length_map] at hvalues
  rw [hvalues, h.2.length_eq]

/-- The first tokens convert within the six bounds. -/
def LeadingTokensValid (base : BaseLibrary) (string : List Byte) : Prop :=
  ∃ strings rest values, tokens comma string = strings ++ rest ∧
    ConvertTo base (slotBounds ++ slotBounds) strings values

/-- The loop comes to its end on six tokens that convert within their bounds. -/
theorem leadingTokensValid_of_setSlotsFromTokens
    (h : (setSlotsFromTokens base st metadata).1 = .ok st') : LeadingTokensValid base st := by
  unfold setSlotsFromTokens at h
  cases hfirst : setSlot base st (metadata 0) with
  | mk result slot =>
    rw [hfirst] at h
    cases result with
    | error e => cases h
    | ok st₁ =>
      obtain ⟨strings, values, ht, hv⟩ := tokens_of_setSlot (congrArg Prod.fst hfirst)
      obtain ⟨strings', values', ht', hv'⟩ := tokens_of_setSlot h
      refine ⟨strings ++ strings', tokens comma st', values ++ values', ?_, hv.append hv'⟩
      rw [ht, ht', List.append_assoc]

/-- The values of the first six tokens are in the slots when the loop comes to its end. -/
theorem setSlotsFromTokens_of_tokens (metadata : Fin 2 → BubSlotData)
    (htokens : tokens comma st = strings ++ rest)
    (hvalues : ConvertTo base (slotBounds ++ slotBounds) strings values) :
    ∃ st' metadata', setSlotsFromTokens base st metadata = (.ok st', metadata') ∧
      slotValues (metadata' 0) ++ slotValues (metadata' 1) = values := by
  obtain ⟨strings₁, strings₂, values₁, values₂, rfl, rfl, hv₁, hv₂⟩ := hvalues.split
  rw [List.append_assoc] at htokens
  obtain ⟨st₁, slot₁, hfirst, ht₁, rfl⟩ := setSlot_of_tokens (metadata 0) htokens hv₁
  obtain ⟨st₂, slot₂, hsecond, -, rfl⟩ := setSlot_of_tokens (metadata 1) ht₁ hv₂
  have hother : Function.update metadata 0 slot₁ 1 = metadata 1 :=
    Function.update_of_ne (by decide) _ _
  unfold setSlotsFromTokens
  rw [hfirst]
  dsimp only
  rw [hother, hsecond]
  refine ⟨st₂, _, rfl, ?_⟩
  rw [Function.update_self, Function.update_of_ne (by decide), Function.update_self]

/-! ## What is accepted -/

variable {abMetadata output : List Byte}

/-- The parser accepts what starts with six valid tokens. -/
theorem parseCommandLineArgs_accepts_iff (houtput : output ≠ []) :
    (∃ fname, (parseCommandLineArgs base abMetadata output metadata).1 = .ok fname) ↔
      LeadingTokensValid base (base.getSwitchValueASCII abMetadata) := by
  unfold parseCommandLineArgs
  constructor
  · rintro ⟨fname, h⟩
    cases hslots : setSlotsFromTokens base (base.getSwitchValueASCII abMetadata) metadata with
    | mk result metadata' =>
      rw [hslots] at h
      cases result with
      | error e => cases h
      | ok st => exact leadingTokensValid_of_setSlotsFromTokens (congrArg Prod.fst hslots)
  · rintro ⟨strings, rest, values, htokens, hvalues⟩
    obtain ⟨st, metadata', hslots, -⟩ := setSlotsFromTokens_of_tokens metadata htokens hvalues
    rw [hslots]
    dsimp only
    rw [if_neg houtput]
    exact ⟨output, rfl⟩

/-- The values of the first six tokens are in the slots of what is accepted. -/
theorem slotValues_parseCommandLineArgs
    (htokens : tokens comma (base.getSwitchValueASCII abMetadata) = strings ++ rest)
    (hvalues : ConvertTo base (slotBounds ++ slotBounds) strings values) :
    slotValues ((parseCommandLineArgs base abMetadata output metadata).2 0) ++
      slotValues ((parseCommandLineArgs base abMetadata output metadata).2 1) = values := by
  obtain ⟨st, metadata', hslots, hvalues⟩ := setSlotsFromTokens_of_tokens metadata htokens hvalues
  unfold parseCommandLineArgs
  rw [hslots]
  split_ifs <;> exact hvalues

/-- The strings of the grammar are ASCII. -/
theorem Grammar.isAscii (hbase : base.Documented) (h : Grammar base abMetadata values) :
    IsAscii abMetadata := by
  refine Tokenizer.forall_mem_of_splitOn (d := comma) (by decide) fun field hfield => ?_
  have hconverted := List.mem_map_of_mem (f := base.stringToInt) hfield
  rw [h.values.1, List.mem_map] at hconverted
  obtain ⟨n, -, hn⟩ := hconverted
  exact hbase.digits field n hn.symm

/-- The strings of the grammar start with six valid tokens. -/
theorem Grammar.leadingTokensValid (h : Grammar base abMetadata values) :
    LeadingTokensValid base abMetadata := by
  refine ⟨abMetadata.splitOn comma, [], values, ?_, h.values⟩
  rw [tokens_eq_splitOn h.fields, List.append_nil]

/-- No tokens are not enough. -/
theorem not_leadingTokensValid_nil : ¬LeadingTokensValid base [] := by
  rintro ⟨strings, rest, values, htokens, hvalues⟩
  have hlength := hvalues.length_strings
  rw [Tokenizer.tokens_nil] at htokens
  obtain ⟨rfl, -⟩ := List.append_eq_nil_iff.mp htokens.symm
  cases hlength

/-- With six fields none of which is empty, the first six tokens are the fields. -/
theorem exists_grammar_of_six (hsix : (abMetadata.splitOn comma).length = 6)
    (hfields : ∀ field ∈ abMetadata.splitOn comma, field ≠ [])
    (h : LeadingTokensValid base abMetadata) : ∃ values, Grammar base abMetadata values := by
  obtain ⟨strings, rest, values, htokens, hvalues⟩ := h
  rw [tokens_eq_splitOn hfields] at htokens
  have hlength := congrArg List.length htokens
  rw [hsix, List.length_append, hvalues.length_strings] at hlength
  have hrest : rest = [] := List.length_eq_zero_iff.mp (by simpa [slotBounds] using hlength)
  rw [hrest, List.append_nil] at htokens
  exact ⟨values, hfields, by rw [htokens]; exact hvalues⟩

/-- What is accepted has to be of the grammar. -/
theorem ParsesGrammar.six_fields (h : ParsesGrammar base abMetadata output metadata)
    (hbase : base.Documented) (houtput : output ≠ []) (hascii : IsAscii abMetadata)
    (hvalid : LeadingTokensValid base abMetadata) :
    (abMetadata.splitOn comma).length = 6 ∧ ∀ field ∈ abMetadata.splitOn comma, field ≠ [] := by
  have haccepts := h.accepts_iff
  rw [parseCommandLineArgs_accepts_iff houtput, hbase.ascii abMetadata hascii] at haccepts
  obtain ⟨values, hgrammar⟩ := haccepts.mp hvalid
  exact ⟨hgrammar.values.length_strings, hgrammar.fields⟩

/-- The parser is right exactly when the string has six fields none of which is empty, or is not
ASCII, or does not start with six valid tokens. -/
theorem parsesGrammar_iff {base : BaseLibrary} (hbase : base.Documented) (abMetadata : List Byte)
    {output : List Byte} (houtput : output ≠ []) (metadata : Fin 2 → BubSlotData) :
    ParsesGrammar base abMetadata output metadata ↔
      ((abMetadata.splitOn comma).length = 6 ∧ ∀ field ∈ abMetadata.splitOn comma, field ≠ []) ∨
        ¬IsAscii abMetadata ∨ ¬LeadingTokensValid base abMetadata := by
  constructor
  · intro h
    by_cases hascii : IsAscii abMetadata
    · by_cases hvalid : LeadingTokensValid base abMetadata
      · exact .inl (h.six_fields hbase houtput hascii hvalid)
      · exact .inr (.inr hvalid)
    · exact .inr (.inl hascii)
  · intro h
    refine ⟨?_, fun values hgrammar => ?_⟩
    · rw [parseCommandLineArgs_accepts_iff houtput]
      constructor
      · intro hvalid
        by_cases hascii : IsAscii abMetadata
        · rw [hbase.ascii abMetadata hascii] at hvalid
          obtain ⟨hsix, hfields⟩ | hascii' | hvalid' := h
          · exact exists_grammar_of_six hsix hfields hvalid
          · exact absurd hascii hascii'
          · exact absurd hvalid hvalid'
        · -- The switch has no value then, and there are no tokens in it.
          rw [hbase.notAscii abMetadata hascii] at hvalid
          exact absurd hvalid not_leadingTokensValid_nil
      · rintro ⟨values, hgrammar⟩
        rw [hbase.ascii abMetadata (hgrammar.isAscii hbase)]
        exact hgrammar.leadingTokensValid
    · -- The values come from the six fields, which are all the tokens.
      have htokens : tokens comma (base.getSwitchValueASCII abMetadata) =
          abMetadata.splitOn comma ++ [] := by
        rw [hbase.ascii abMetadata (hgrammar.isAscii hbase), tokens_eq_splitOn hgrammar.fields,
          List.append_nil]
      exact slotValues_parseCommandLineArgs htokens hgrammar.values

end

/-- `"15,7,0,14,0,1"`. -/
def sixValues : List Byte :=
  ascii ['1', '5', ',', '7', ',', '0', ',', '1', '4', ',', '0', ',', '1']

/-- `"misc.img"`. -/
def miscImg : List Byte := ascii ['m', 'i', 's', 'c', '.', 'i', 'm', 'g']

/-- The base library on numbers of a few digits. -/
def digitsLibrary : BaseLibrary where
  getSwitchValueASCII value := if ∀ c ∈ value, c < 0x80 then value else []
  stringToInt string :=
    if string ≠ [] ∧ ∀ c ∈ string, 0x30 ≤ c ∧ c ≤ 0x39 then
      some (string.foldl (fun n c => 10 * n + (c.toNat - 0x30 : ℤ)) 0)
    else none

/-- This library is as documented. -/
theorem digitsLibrary_documented : digitsLibrary.Documented where
  ascii value h := if_pos h
  notAscii value h := if_neg h
  digits string n h c hc := by
    unfold digitsLibrary at h
    dsimp only at h
    split_ifs at h with hdigits
    have hle := (hdigits.2 c hc).2
    show c < 0x80
    rw [BitVec.le_def] at hle
    rw [BitVec.lt_def]
    exact Nat.lt_of_le_of_lt hle (by decide)

/-- Six values that are all in their ranges. -/
theorem parsesGrammar_iff_six :
    digitsLibrary.Documented ∧ miscImg ≠ [] ∧
      (ParsesGrammar digitsLibrary sixValues miscImg (fun _ => BubSlotData.zero) ↔
        ((sixValues.splitOn comma).length = 6 ∧ ∀ field ∈ sixValues.splitOn comma, field ≠ []) ∨
          ¬IsAscii sixValues ∨ ¬LeadingTokensValid digitsLibrary sixValues) :=
  ⟨digitsLibrary_documented, by decide,
    parsesGrammar_iff digitsLibrary_documented sixValues (by decide) _⟩

/-- A seventh value is accepted. -/
theorem seven_not_parsesGrammar :
    ¬ParsesGrammar digitsLibrary (sixValues ++ ascii [',', '9']) miscImg
      fun _ => BubSlotData.zero := by
  intro h
  have hvalid : LeadingTokensValid digitsLibrary (sixValues ++ ascii [',', '9']) := by
    refine ⟨[['1', '5'], ['7'], ['0'], ['1', '4'], ['0'], ['1']].map ascii, [ascii ['9']],
      [15, 7, 0, 14, 0, 1], ?_, ?_, ?_⟩ <;> decide
  have hascii : IsAscii (sixValues ++ ascii [',', '9']) := by
    unfold IsAscii
    decide
  have hsix := (h.six_fields digitsLibrary_documented (by decide) hascii hvalid).1
  revert hsix
  decide

end BrilloBoot
