import BlockForge.Json.Draft
import BlockForge.Proofs.Decimal

/-!
Written numbers read back.

A written number has a sign, digits, perhaps a fraction and perhaps a power of ten.
`numeral_text` reads all such parts back, and the writers of whole numbers and of
doubles are shown to write such parts.
-/

namespace BlockForge.Json

open Double

def Digits (cs : List Char) : Prop :=
  cs ≠ [] ∧ ∀ c ∈ cs, c.isDigit = true

/-- Nothing that a numeral could go on with. -/
def Stops (cs : List Char) : Prop :=
  ∀ c, cs.head? = some c → c.isDigit = false ∧ c ≠ '.' ∧ c ≠ 'e' ∧ c ≠ 'E'

def NoDigit (cs : List Char) : Prop :=
  ∀ c, cs.head? = some c → c.isDigit = false

theorem stops_cons {c : Char} (rest : List Char)
    (h : c.isDigit = false ∧ c ≠ '.' ∧ c ≠ 'e' ∧ c ≠ 'E') : Stops (c :: rest) := by
  intro d hd
  obtain rfl : c = d := Option.some.inj hd
  exact h

theorem stops_nil : Stops [] := by
  intro c hc
  cases hc

theorem Stops.noDigit {cs : List Char} (h : Stops cs) : NoDigit cs :=
  fun c hc => (h c hc).1

/-- The parts of a written number. -/
structure NumeralParts where
  negative : Bool
  whole : List Char
  fraction : Option (List Char)
  power : Option Int

namespace NumeralParts

def signText (negative : Bool) : List Char :=
  if negative then ['-'] else []

def fractionText : Option (List Char) → List Char
  | none => []
  | some digits => '.' :: digits

def powerText : Option Int → List Char
  | none => []
  | some power => 'e' :: exponentText power

def text (p : NumeralParts) : List Char :=
  signText p.negative ++ (p.whole ++ (fractionText p.fraction ++ powerText p.power))

def decimal (p : NumeralParts) : Decimal :=
  .ofParts p.negative p.whole (p.fraction.getD []) (p.power.getD 0)

/-- Digits where there have to be some, and no needless zero in front. -/
structure Sound (p : NumeralParts) : Prop where
  whole : Digits p.whole
  lead : ∀ rest, p.whole = '0' :: rest → rest = []
  fraction : ∀ digits, p.fraction = some digits → Digits digits

end NumeralParts

open NumeralParts (signText fractionText powerText)

theorem digits_zero : Digits ['0'] := by
  refine ⟨List.cons_ne_nil _ _, ?_⟩
  intro c hc
  rw [List.mem_singleton.1 hc]
  rfl

theorem digits_toDigits (n : Nat) : Digits (Nat.toDigits 10 n) :=
  ⟨Nat.toDigits_ne_nil, fun _ hc => Nat.isDigit_of_mem_toDigits (by decide) (by decide) hc⟩

theorem lead_singleton (c : Char) (rest : List Char) (h : [c] = '0' :: rest) : rest = [] :=
  (List.cons.inj h).2.symm

/-- Only zero is written with a zero in front. -/
theorem toDigits_lead {n : Nat} (hn : n ≠ 0) (rest : List Char) :
    Nat.toDigits 10 n ≠ '0' :: rest := by
  induction n using Nat.strongRecOn generalizing rest with
  | _ n ih =>
    by_cases hlt : n < 10
    · have hdigit : ∀ n, n < 10 → n ≠ 0 → n.digitChar ≠ '0' := by decide
      rw [Nat.toDigits_of_lt_base hlt]
      intro heq
      exact hdigit n hlt hn (List.cons.inj heq).1
    · rw [Nat.toDigits_of_base_le (by decide) (by omega)]
      intro heq
      cases hhigh : Nat.toDigits 10 (n / 10) with
      | nil => exact Nat.toDigits_ne_nil hhigh
      | cons d ds =>
          rw [hhigh, List.cons_append] at heq
          obtain ⟨rfl, _⟩ := List.cons.inj heq
          exact ih (n / 10) (by omega) (by omega) ds hhigh

theorem toDigits_lead_alone (n : Nat) (rest : List Char)
    (h : Nat.toDigits 10 n = '0' :: rest) : rest = [] := by
  by_cases hn : n = 0
  · subst hn
    exact (List.cons.inj h).2.symm
  · exact absurd h (toDigits_lead hn rest)

theorem spanDigits_append {ds rest : List Char} (hds : ∀ c ∈ ds, c.isDigit = true)
    (hrest : NoDigit rest) : spanDigits (ds ++ rest) = (ds, rest) := by
  rw [spanDigits, List.takeWhile_append_of_pos hds, List.dropWhile_append_of_pos hds]
  cases rest with
  | nil => simp
  | cons c rest => simp [hrest c rfl]

theorem someDigits_append {ds rest : List Char} (hds : Digits ds) (hrest : NoDigit rest) :
    someDigits (ds ++ rest) = .ok (ds, rest) := by
  rw [someDigits, spanDigits_append hds.2 hrest]
  cases ds with
  | nil => exact absurd rfl hds.1
  | cons d ds => rfl

theorem wholePart_append {ds rest : List Char} (hds : Digits ds)
    (hlead : ∀ tail, ds = '0' :: tail → tail = []) (hrest : NoDigit rest) :
    wholePart (ds ++ rest) = .ok (ds, rest) := by
  rw [wholePart, someDigits_append hds hrest]
  simp only [bind, Except.bind]
  split
  next d ds => cases hlead (d :: ds) rfl
  next => rfl

theorem fractionPart_append {fraction : Option (List Char)} {rest : List Char}
    (hdigits : ∀ ds, fraction = some ds → Digits ds) (hrest : NoDigit rest)
    (hpoint : rest.head? ≠ some '.') :
    fractionPart (fractionText fraction ++ rest) = .ok (fraction, rest) := by
  cases fraction with
  | none =>
      change fractionPart rest = _
      unfold fractionPart
      split
      next => exact absurd rfl hpoint
      next => rfl
  | some ds =>
      rw [fractionText, List.cons_append, fractionPart,
        someDigits_append (hdigits ds rfl) hrest]
      rfl

/-- A written power of ten has a digit or a minus sign in front. -/
theorem powerSign_append {ds : List Char} (hds : Digits ds) (rest : List Char) :
    powerSign (ds ++ rest) = (false, ds ++ rest) := by
  cases ds with
  | nil => exact absurd rfl hds.1
  | cons d ds =>
      have hdigit := hds.2 d List.mem_cons_self
      rw [List.cons_append, powerSign.eq_def]
      split
      next heq =>
        obtain ⟨rfl, _⟩ := List.cons.inj heq
        exact absurd hdigit (by decide)
      next heq =>
        obtain ⟨rfl, _⟩ := List.cons.inj heq
        exact absurd hdigit (by decide)
      next => rfl

theorem powerPart_append (power : Option Int) {rest : List Char} (hrest : Stops rest) :
    powerPart (powerText power ++ rest) = .ok (power, rest) := by
  cases power with
  | none =>
      cases rest with
      | nil => rfl
      | cons c rest =>
          obtain ⟨_, _, hlower, hupper⟩ := hrest c rfl
          change powerPart (c :: rest) = _
          rw [powerPart, if_neg (by simp [hlower, hupper])]
  | some power =>
      have hdigits := digits_toDigits power.natAbs
      change powerPart ('e' :: (exponentText power ++ rest)) = _
      rw [powerPart, if_pos (.inl rfl), exponentText]
      by_cases hneg : power < 0
      · rw [if_pos hneg]
        simp only [List.cons_append, powerSign, someDigits_append hdigits hrest.noDigit,
          bind, Except.bind, digitsValue_toDigits, if_true]
        congr 3
        omega
      · rw [if_neg hneg]
        simp only [powerSign_append hdigits, someDigits_append hdigits hrest.noDigit,
          bind, Except.bind, digitsValue_toDigits]
        rw [if_neg (by decide)]
        congr 3
        omega

theorem numeralSign_append {ds : List Char} (hds : Digits ds) (rest : List Char) :
    numeralSign (ds ++ rest) = (false, ds ++ rest) := by
  cases ds with
  | nil => exact absurd rfl hds.1
  | cons d ds =>
      have hdigit := hds.2 d List.mem_cons_self
      rw [List.cons_append, numeralSign.eq_def]
      split
      next heq =>
        obtain ⟨rfl, _⟩ := List.cons.inj heq
        exact absurd hdigit (by decide)
      next => rfl

theorem numeralSign_text {p : NumeralParts} (h : p.Sound) (rest : List Char) :
    numeralSign (p.text ++ rest) =
      (p.negative, p.whole ++ (fractionText p.fraction ++ (powerText p.power ++ rest))) := by
  rw [NumeralParts.text]
  cases p.negative with
  | false =>
      simp only [signText, Bool.false_eq_true, if_false, List.nil_append, List.append_assoc]
      exact numeralSign_append h.whole _
  | true => simp [signText, numeralSign]

theorem stops_powerText (power : Option Int) {rest : List Char} (hrest : Stops rest) :
    NoDigit (powerText power ++ rest) ∧ (powerText power ++ rest).head? ≠ some '.' := by
  cases power with
  | none =>
      refine ⟨hrest.noDigit, ?_⟩
      intro hpoint
      exact (hrest '.' hpoint).2.1 rfl
  | some power =>
      constructor
      · intro c hc
        obtain rfl : 'e' = c := Option.some.inj hc
        decide
      · intro hpoint
        exact absurd (Option.some.inj hpoint) (by decide)

/-- Sound parts are read back from their text, up to what no numeral goes on with. -/
theorem numeral_text {p : NumeralParts} (h : p.Sound) {rest : List Char}
    (hrest : Stops rest) :
    numeral (p.text ++ rest) =
      .ok (numberOf p.negative p.whole p.fraction p.power, rest) := by
  obtain ⟨hnoDigit, hnoPoint⟩ := stops_powerText p.power hrest
  have hwhole : NoDigit (fractionText p.fraction ++ (powerText p.power ++ rest)) := by
    cases p.fraction with
    | none => exact hnoDigit
    | some digits =>
        intro c hc
        obtain rfl : '.' = c := Option.some.inj hc
        decide
  rw [numeral, numeralSign_text h]
  simp only [wholePart_append h.whole h.lead hwhole,
    fractionPart_append h.fraction hnoDigit hnoPoint, powerPart_append p.power hrest,
    bind, Except.bind]

def integerParts (i : Int) : NumeralParts :=
  ⟨decide (i < 0), Nat.toDigits 10 i.natAbs, none, none⟩

theorem sound_integerParts (i : Int) : (integerParts i).Sound :=
  ⟨digits_toDigits _, toDigits_lead_alone _, fun _ hnone => by cases hnone⟩

theorem text_integerParts (i : Int) : (integerParts i).text = integerText i := by
  by_cases hneg : i < 0 <;>
    simp [integerParts, integerText, NumeralParts.text, hneg, signText, fractionText, powerText]

/-- A whole number of 64 bits is read back as such. -/
theorem numeral_integerText {i : Int} (hlow : Word.minSigned ≤ i) (hhigh : i ≤ Word.maxUnsigned)
    {rest : List Char} (hrest : Stops rest) :
    numeral (integerText i ++ rest) = .ok (.ok (.integer i), rest) := by
  rw [← text_integerParts, numeral_text (sound_integerParts i) hrest]
  simp only [integerParts, numberOf, Option.isNone_none, and_self, if_true,
    digitsValue_toDigits]
  by_cases hneg : i < 0
  · have hvalue : -(i.natAbs : Int) = i := by omega
    rw [if_pos (by simpa using hneg), hvalue, if_pos ⟨by omega, hlow⟩]
  · have hvalue : (i.natAbs : Int) = i := by omega
    have hle : i.natAbs ≤ Word.maxUnsigned := by omega
    rw [if_neg (by simpa using hneg), if_pos hle, hvalue]

/-- Parts with a point or a power of ten that are rounded as a decimal is. -/
structure NumeralParts.Writes (p : NumeralParts) (d : Decimal) : Prop where
  sound : p.Sound
  notWhole : ¬ (p.fraction.isNone ∧ p.power.isNone)
  rounded : ofDecimal p.decimal = ofDecimal d

theorem numeral_of_writes {p : NumeralParts} {d : Decimal} (h : p.Writes d)
    {negative : Bool} {rank : Fin magnitudes} (hd : ofDecimal d = .finite negative rank)
    {rest : List Char} (hrest : Stops rest) :
    numeral (p.text ++ rest) = .ok (.ok (.real (.finite negative rank)), rest) := by
  have hrounded : ofDecimal (.ofParts p.negative p.whole (p.fraction.getD [])
      (p.power.getD 0)) = .finite negative rank := h.rounded.trans hd
  rw [numeral_text h.sound hrest, numberOf, if_neg h.notWhole, hrounded]

theorem digitsValue_append_replicate (ds : List Char) (k : Nat) :
    digitsValue (ds ++ List.replicate k '0') = digitsValue ds * powerOfTen k := by
  rw [digitsValue, Nat.ofDigitChars_append, Nat.ofDigitChars_replicate_zero, Nat.mul_comm]
  rfl

theorem digitsValue_replicate_append (ds : List Char) (k : Nat) :
    digitsValue (List.replicate k '0' ++ ds) = digitsValue ds := by
  rw [digitsValue, Nat.ofDigitChars_append, Nat.ofDigitChars_replicate_zero, Nat.mul_zero]
  rfl

theorem digits_append {ds es : List Char} (hds : Digits ds)
    (hes : ∀ c ∈ es, c.isDigit = true) : Digits (ds ++ es) := by
  refine ⟨List.append_ne_nil_of_left_ne_nil hds.1 es, ?_⟩
  intro c hc
  rcases List.mem_append.1 hc with hc | hc
  · exact hds.2 c hc
  · exact hes c hc

theorem isDigit_of_mem_replicate {k : Nat} {c : Char} (hc : c ∈ List.replicate k '0') :
    c.isDigit = true := by
  obtain rfl := List.eq_of_mem_replicate hc
  decide

section Layout

variable (negative : Bool) {ds : List Char} (hds : Digits ds)
  (hlead : ∀ rest, ds ≠ '0' :: rest)

include hds hlead

/-- A whole number: the digits, zeros for the power of ten, and a zero fraction. -/
theorem writes_whole (k : Nat) :
    NumeralParts.Writes ⟨negative, ds ++ List.replicate k '0', some ['0'], none⟩
      ⟨negative, digitsValue ds, k⟩ where
  sound := by
    refine ⟨digits_append hds fun c hc => isDigit_of_mem_replicate hc, ?_, ?_⟩
    · intro rest heq
      cases hshape : ds with
      | nil => exact absurd hshape hds.1
      | cons d tail =>
          rw [hshape, List.cons_append] at heq
          obtain ⟨rfl, _⟩ := List.cons.inj heq
          exact absurd hshape (hlead tail)
    · intro digits hdigits
      obtain rfl : ['0'] = digits := Option.some.inj hdigits
      exact digits_zero
  notWhole := by simp
  rounded := by
    have hzeros : ds ++ List.replicate k '0' ++ ['0'] = ds ++ List.replicate (k + 1) '0' := by
      rw [List.append_assoc, List.replicate_succ']
    simp only [NumeralParts.decimal, Decimal.ofParts, Option.getD_some, Option.getD_none,
      hzeros, digitsValue_append_replicate]
    have hscale := ofDecimal_mul_powerOfTen negative (digitsValue ds) (k + 1) k
    rw [← hscale, List.length_singleton]
    congr 2
    omega

/-- The point stands among the digits. -/
theorem writes_point {point : Nat} (hpos : 0 < point) (hlt : point < ds.length) :
    NumeralParts.Writes ⟨negative, ds.take point, some (ds.drop point), none⟩
      ⟨negative, digitsValue ds, point - ds.length⟩ where
  sound := by
    refine ⟨⟨?_, fun c hc => hds.2 c (List.mem_of_mem_take hc)⟩, ?_, ?_⟩
    · intro hnil
      have hlength := congrArg List.length hnil
      rw [List.length_take, List.length_nil] at hlength
      omega
    · intro rest heq
      have happend := List.take_append_drop point ds
      dsimp only at heq
      rw [heq, List.cons_append] at happend
      exact absurd happend.symm (hlead _)
    · intro digits hdigits
      obtain rfl : ds.drop point = digits := Option.some.inj hdigits
      refine ⟨?_, fun c hc => hds.2 c (List.mem_of_mem_drop hc)⟩
      intro hnil
      have hlength := congrArg List.length hnil
      rw [List.length_drop, List.length_nil] at hlength
      omega
  notWhole := by simp
  rounded := by
    simp only [NumeralParts.decimal, Decimal.ofParts, Option.getD_some, Option.getD_none,
      List.take_append_drop, List.length_drop]
    congr 2
    omega

omit hlead in
/-- The point stands before the digits, with zeros between them. -/
theorem writes_fraction (k : Nat) :
    NumeralParts.Writes ⟨negative, ['0'], some (List.replicate k '0' ++ ds), none⟩
      ⟨negative, digitsValue ds, -(k : Int) - ds.length⟩ where
  sound := by
    refine ⟨digits_zero, lead_singleton '0', ?_⟩
    · intro digits hdigits
      obtain rfl : List.replicate k '0' ++ ds = digits := Option.some.inj hdigits
      refine ⟨List.append_ne_nil_of_right_ne_nil _ hds.1, ?_⟩
      intro c hc
      rcases List.mem_append.1 hc with hc | hc
      · exact isDigit_of_mem_replicate hc
      · exact hds.2 c hc
  notWhole := by simp
  rounded := by
    have hzeros : ['0'] ++ (List.replicate k '0' ++ ds) = List.replicate (k + 1) '0' ++ ds := by
      rw [List.replicate_succ]
      rfl
    simp only [NumeralParts.decimal, Decimal.ofParts, Option.getD_some, Option.getD_none,
      hzeros, digitsValue_replicate_append, List.length_append, List.length_replicate]
    congr 2
    omega

end Layout

/-- One digit, perhaps a fraction, and a power of ten. -/
theorem writes_power (negative : Bool) {d : Char} {ds : List Char} (hds : Digits (d :: ds))
    (power : Int) :
    NumeralParts.Writes ⟨negative, [d], if ds = [] then none else some ds, some power⟩
      ⟨negative, digitsValue (d :: ds), power - ds.length⟩ where
  sound := by
    refine ⟨⟨by simp, ?_⟩, ?_, ?_⟩
    · intro c hc
      rw [List.mem_singleton.1 hc]
      exact hds.2 d List.mem_cons_self
    · exact lead_singleton d
    · intro digits hdigits
      by_cases hnil : ds = []
      · rw [if_pos hnil] at hdigits
        cases hdigits
      · rw [if_neg hnil] at hdigits
        obtain rfl : ds = digits := Option.some.inj hdigits
        exact ⟨hnil, fun c hc => hds.2 c (List.mem_cons_of_mem d hc)⟩
  notWhole := by simp
  rounded := by
    by_cases hnil : ds = []
    · simp [NumeralParts.decimal, Decimal.ofParts, hnil]
    · simp [NumeralParts.decimal, Decimal.ofParts, hnil]

/-- The layout of digits is the text of parts that are rounded as the digits are. -/
theorem exists_parts_layout (negative : Bool) {ds : List Char} (hds : Digits ds)
    (hlead : ∀ rest, ds ≠ '0' :: rest) (exponent : Int) :
    ∃ p : NumeralParts, p.Writes ⟨negative, digitsValue ds, exponent⟩ ∧
      p.text = signText negative ++ layout ds exponent := by
  have hlength : 0 < ds.length := List.length_pos_iff.2 hds.1
  unfold layout
  dsimp only
  split
  next h =>
    obtain ⟨k, rfl⟩ : ∃ k : Nat, exponent = k := ⟨exponent.toNat, by omega⟩
    refine ⟨_, writes_whole negative hds hlead k, ?_⟩
    simp [NumeralParts.text, fractionText, powerText]
  next hwhole =>
    split
    next h =>
      obtain ⟨point, hpoint⟩ : ∃ point : Nat, ds.length + exponent = point :=
        ⟨(ds.length + exponent).toNat, by omega⟩
      have hexponent : exponent = point - ds.length := by omega
      refine ⟨⟨negative, ds.take point, some (ds.drop point), none⟩, ?_, ?_⟩
      · rw [hexponent]
        exact writes_point negative hds hlead (by omega) (by omega)
      · simp [NumeralParts.text, fractionText, powerText, hpoint]
    next hpoint =>
      split
      next h =>
        obtain ⟨k, hk⟩ : ∃ k : Nat, -(ds.length + exponent) = k :=
          ⟨(-(ds.length + exponent)).toNat, by omega⟩
        have hexponent : exponent = -(k : Int) - ds.length := by omega
        refine ⟨⟨negative, ['0'], some (List.replicate k '0' ++ ds), none⟩, ?_, ?_⟩
        · rw [hexponent]
          exact writes_fraction negative hds k
        · simp [NumeralParts.text, fractionText, powerText, hk]
      next hfraction =>
        cases ds with
        | nil => exact absurd rfl hds.1
        | cons d ds =>
            have hexponent : exponent = (ds.length + exponent) - ds.length := by omega
            refine ⟨⟨negative, [d], if ds = [] then none else some ds,
              some (ds.length + exponent)⟩, ?_, ?_⟩
            · have hwrites := writes_power negative hds (ds.length + exponent)
              rw [← hexponent] at hwrites
              exact hwrites
            · have hpower : ((d :: ds).length : Int) + exponent - 1 = ds.length + exponent := by
                rw [List.length_cons]
                omega
              rw [hpower]
              cases ds with
              | nil => simp [NumeralParts.text, fractionText, powerText]
              | cons e ds => simp [NumeralParts.text, fractionText, powerText]

/-- The text of a decimal is the text of parts that are rounded as the decimal is. -/
theorem exists_parts_decimalText (d : Decimal) :
    ∃ p : NumeralParts, p.Writes d ∧ p.text = decimalText d := by
  have hsign := negative_normalized d
  have hround := ofDecimal_normalized d
  rw [decimalText]
  generalize normalized d = n at hsign hround
  obtain ⟨negative, digits, exponent⟩ := n
  dsimp only at hsign hround ⊢
  by_cases hzero : digits = 0
  · subst hzero
    refine ⟨⟨negative, ['0'], some ['0'], none⟩,
      ⟨⟨digits_zero, lead_singleton '0', ?_⟩, ?_, ?_⟩, ?_⟩
    · intro ds hds
      obtain rfl : ['0'] = ds := Option.some.inj hds
      exact digits_zero
    · simp
    · rw [← hround, ofDecimal_zero]
      exact ofDecimal_zero negative _
    · cases negative <;> rfl
  · obtain ⟨p, hp, htext⟩ := exists_parts_layout negative (digits_toDigits digits)
      (toDigits_lead hzero) exponent
    rw [digitsValue_toDigits] at hp
    refine ⟨p, ⟨hp.sound, hp.notWhole, hp.rounded.trans hround⟩, ?_⟩
    rw [htext, if_neg hzero]
    cases negative <;> rfl

/-- A finite double is read back as itself. -/
theorem numeral_real (negative : Bool) (rank : Fin magnitudes) {rest : List Char}
    (hrest : Stops rest) :
    numeral ((Number.real (.finite negative rank)).text ++ rest) =
      .ok (.ok (.real (.finite negative rank)), rest) := by
  obtain ⟨p, hp, htext⟩ := exists_parts_decimalText (shortest negative rank)
  change numeral (decimalText (shortest negative rank) ++ rest) = _
  rw [← htext]
  exact numeral_of_writes hp (ofDecimal_shortest negative rank) hrest

end BlockForge.Json
