import AccessControl.Base64
import AccessControl.Outcome
import Mathlib.Tactic.SplitIfs

/-!
# Base64 read back

A text is decoded to bytes exactly when it is their encoding. So padding is never left out, no
bits are set behind the last byte, and no two texts stand for the same bytes.
-/

namespace AccessControl
namespace Base64

variable {start index padding : Nat} {b : UInt8} {v : Nat} {text symbols bytes : List UInt8}
  {values : List Nat}

/-! ## Symbols -/

theorem symbol_of_value? (h : value? b = some v) : symbol v = b ∧ v < 64 := by
  have hall : ∀ n < 256, ∀ w ∈ value? (UInt8.ofNat n), symbol w = UInt8.ofNat n ∧ w < 64 := by
    decide +kernel
  have hb := hall b.toNat b.toNat_lt
  rw [UInt8.ofNat_toNat] at hb
  exact hb v h

theorem value?_eq_some_iff : value? b = some v ↔ b = symbol v ∧ v < 64 := by
  constructor
  · intro h
    obtain ⟨hsymbol, hlt⟩ := symbol_of_value? h
    exact ⟨hsymbol.symm, hlt⟩
  · rintro ⟨rfl, hlt⟩
    exact value?_symbol v hlt

theorem symbol_ne_pad (h : v < 64) : symbol v ≠ pad := by
  intro hpad
  have hvalue := value?_symbol v h
  rw [hpad] at hvalue
  cases hvalue

theorem valueAt_eq_ok_iff : valueAt start b = .ok v ↔ b = symbol v ∧ v < 64 := by
  rw [← value?_eq_some_iff, valueAt]
  cases value? b <;> simp

/-! ## Groups -/

theorem toNat_ofNat_of_lt {n : Nat} (h : n < 256) : (UInt8.ofNat n).toNat = n := by
  rw [UInt8.toNat_ofNat']
  exact Nat.mod_eq_of_lt h

/-- Four symbols stand for three bytes. -/
theorem encode_triple {p q r s : Nat} (hp : p < 64) (hq : q < 64) (hr : r < 64) (hs : s < 64)
    (rest : List UInt8) : encode (triple p q r s ++ rest) =
      [p, q, r, s].map symbol ++ encode rest := by
  have ha : (UInt8.ofNat (p * 4 + q / 16)).toNat = p * 4 + q / 16 :=
    toNat_ofNat_of_lt (by omega)
  have hb : (UInt8.ofNat (q * 16 + r / 4)).toNat = (q * 16 + r / 4) % 256 := UInt8.toNat_ofNat'
  have hc : (UInt8.ofNat (r * 64 + s)).toNat = (r * 64 + s) % 256 := UInt8.toNat_ofNat'
  have hfirst : (p * 4 + q / 16) / 4 = p := by omega
  have hsecond : (p * 4 + q / 16) % 4 * 16 + (q * 16 + r / 4) % 256 / 16 = q := by omega
  have hthird : (q * 16 + r / 4) % 256 % 16 * 4 + (r * 64 + s) % 256 / 64 = r := by omega
  have hlast : (r * 64 + s) % 256 % 64 = s := by omega
  simp only [triple, List.cons_append, List.nil_append, encode, ha, hb, hc, hfirst, hsecond,
    hthird, hlast, List.map_cons, List.map_nil]

theorem ofNat_first_byte (a : UInt8) {high : Nat} (h : high < 16) :
    UInt8.ofNat (a.toNat / 4 * 4 + (a.toNat % 4 * 16 + high) / 16) = a := by
  have ha := a.toNat_lt
  rw [← UInt8.toNat_inj, UInt8.toNat_ofNat']
  omega

theorem ofNat_second_byte (a b : UInt8) {high : Nat} (h : high < 4) :
    UInt8.ofNat ((a.toNat % 4 * 16 + b.toNat / 16) * 16 + (b.toNat % 16 * 4 + high) / 4) = b := by
  have hb := b.toNat_lt
  rw [← UInt8.toNat_inj, UInt8.toNat_ofNat']
  omega

theorem triple_of_bytes (a b c : UInt8) :
    triple (a.toNat / 4) (a.toNat % 4 * 16 + b.toNat / 16) (b.toNat % 16 * 4 + c.toNat / 64)
      (c.toNat % 64) = [a, b, c] := by
  have hb := b.toNat_lt
  have hc := c.toNat_lt
  have hthird : UInt8.ofNat ((b.toNat % 16 * 4 + c.toNat / 64) * 64 + c.toNat % 64) = c := by
    rw [← UInt8.toNat_inj, UInt8.toNat_ofNat']
    omega
  rw [triple, ofNat_first_byte a (by omega), ofNat_second_byte a b (by omega), hthird]

theorem four_dvd_length_encode (bytes : List UInt8) : 4 ∣ (encode bytes).length := by
  induction bytes using encode.induct with
  | case1 => exact Nat.dvd_zero 4
  | case2 a => exact Nat.dvd_refl 4
  | case3 a b => exact Nat.dvd_refl 4
  | case4 a b c rest ih =>
    show 4 ∣ (encode rest).length + 4
    exact Nat.dvd_add ih (Nat.dvd_refl 4)

/-! ## The last group -/

/-- No symbol is the sign for padding, so a text that begins with it holds nothing else. -/
theorem only_padding {rest : List UInt8} (hlt : ∀ v ∈ values, v < 64)
    (h : pad :: rest = values.map symbol ++ List.replicate padding pad) :
    values = [] ∧ padding = rest.length + 1 ∧ rest = List.replicate rest.length pad := by
  cases values with
  | nil =>
    cases padding with
    | zero => cases h
    | succ n =>
      obtain ⟨-, rfl⟩ := List.cons.inj h
      rw [List.length_replicate]
      exact ⟨rfl, rfl, rfl⟩
  | cons v values =>
    obtain ⟨hpad, -⟩ := List.cons.inj h
    exact absurd hpad.symm (symbol_ne_pad (hlt v List.mem_cons_self))

/-- Symbols come before padding, and padding behind two symbols at the earliest. -/
theorem lastSymbols_eq_ok_iff :
    lastSymbols start index symbols = .ok (values, padding) ↔
      symbols = values.map symbol ++ List.replicate padding pad ∧ (∀ v ∈ values, v < 64) ∧
        (0 < padding → 2 ≤ index + values.length) := by
  -- On the symbols: once there is padding, everything behind it is padding too.
  induction symbols generalizing index values padding with
  | nil =>
    rw [lastSymbols, Except.ok.injEq, Prod.mk.injEq]
    constructor
    · rintro ⟨rfl, rfl⟩
      exact ⟨rfl, List.forall_mem_nil _, nofun⟩
    · rintro ⟨hnil, -, -⟩
      obtain ⟨hvalues, hpadding⟩ := List.append_eq_nil_iff.mp hnil.symm
      exact ⟨(List.map_eq_nil_iff.mp hvalues).symm,
        (List.replicate_eq_nil_iff _).mp hpadding |>.symm⟩
  | cons b rest ih =>
    rw [lastSymbols]
    split_ifs with hb hpadded
    · obtain ⟨hindex, hrest⟩ := hpadded
      have hall : rest = List.replicate rest.length pad := by
        apply List.eq_replicate_iff.mpr
        exact ⟨rfl, by simpa using hrest⟩
      rw [hb, Except.ok.injEq, Prod.mk.injEq]
      constructor
      · rintro ⟨rfl, rfl⟩
        refine ⟨congrArg (pad :: ·) hall, List.forall_mem_nil _, fun _ => hindex⟩
      · rintro ⟨hsymbols, hlt, -⟩
        obtain ⟨rfl, rfl, -⟩ := only_padding hlt hsymbols
        exact ⟨rfl, rfl⟩
    · constructor
      · nofun
      · rintro ⟨hsymbols, hlt, hindex⟩
        rw [hb] at hsymbols
        obtain ⟨rfl, rfl, hrest⟩ := only_padding hlt hsymbols
        refine absurd ⟨hindex (Nat.succ_pos _), ?_⟩ hpadded
        rw [hrest]
        simp
    · simp only [bind_eq_ok_iff, valueAt_eq_ok_iff, Prod.exists, ih]
      constructor
      · rintro ⟨v, ⟨rfl, hv⟩, values', padding', ⟨rfl, hlt, hindex⟩, h⟩
        cases h
        refine ⟨rfl, List.forall_mem_cons.mpr ⟨hv, hlt⟩, ?_⟩
        intro hpadding
        have hlater := hindex hpadding
        rw [List.length_cons]
        omega
      · rintro ⟨hsymbols, hlt, hindex⟩
        cases values with
        | nil =>
          cases padding with
          | zero => cases hsymbols
          | succ n => exact absurd (List.cons.inj hsymbols).1 hb
        | cons v values =>
          obtain ⟨rfl, rfl⟩ := List.cons.inj hsymbols
          obtain ⟨hv, hlt⟩ := List.forall_mem_cons.mp hlt
          rw [List.length_cons] at hindex
          refine ⟨v, ⟨rfl, hv⟩, values, padding, ⟨rfl, hlt, ?_⟩, rfl⟩
          intro hpadding
          have hlater := hindex hpadding
          omega

theorem encode_pair {p q : Nat} (hp : p < 64) (hq : q < 64) (hclear : q % 16 = 0) :
    encode [UInt8.ofNat (p * 4 + q / 16)] = [p, q].map symbol ++ List.replicate 2 pad := by
  have ha : (UInt8.ofNat (p * 4 + q / 16)).toNat = p * 4 + q / 16 :=
    toNat_ofNat_of_lt (by omega)
  have hfirst : (p * 4 + q / 16) / 4 = p := by omega
  have hsecond : (p * 4 + q / 16) % 4 * 16 = q := by omega
  rw [encode, ha, hfirst, hsecond]
  rfl

theorem encode_three {p q r : Nat} (hp : p < 64) (hq : q < 64) (hr : r < 64)
    (hclear : r % 4 = 0) :
    encode [UInt8.ofNat (p * 4 + q / 16), UInt8.ofNat (q * 16 + r / 4)] =
      [p, q, r].map symbol ++ List.replicate 1 pad := by
  have ha : (UInt8.ofNat (p * 4 + q / 16)).toNat = p * 4 + q / 16 :=
    toNat_ofNat_of_lt (by omega)
  have hb : (UInt8.ofNat (q * 16 + r / 4)).toNat = (q * 16 + r / 4) % 256 := UInt8.toNat_ofNat'
  have hfirst : (p * 4 + q / 16) / 4 = p := by omega
  have hsecond : (p * 4 + q / 16) % 4 * 16 + (q * 16 + r / 4) % 256 / 16 = q := by omega
  have hthird : (q * 16 + r / 4) % 256 % 16 * 4 = r := by omega
  rw [encode, ha, hb, hfirst, hsecond, hthird]
  rfl

/-- What the symbols of a last group stand for, with this much padding behind them. -/
def lastBytes (start padding : Nat) : List Nat → Except Flaw (List UInt8)
  | [] => .ok []
  | [_] => .error (.invalidLength (start + 1))
  | [p, q] =>
    if padding ≠ 2 then .error .invalidPadding
    else if q % 16 ≠ 0 then .error (.invalidLastSymbol (symbol q) (start + 1))
    else .ok [UInt8.ofNat (p * 4 + q / 16)]
  | [p, q, r] =>
    if padding ≠ 1 then .error .invalidPadding
    else if r % 4 ≠ 0 then .error (.invalidLastSymbol (symbol r) (start + 2))
    else .ok [UInt8.ofNat (p * 4 + q / 16), UInt8.ofNat (q * 16 + r / 4)]
  | p :: q :: r :: s :: _ => .ok (triple p q r s)

theorem decodeLast_eq_bind : decodeLast start symbols =
    lastSymbols start 0 symbols >>= fun found => lastBytes start found.2 found.1 := by
  rw [decodeLast]
  refine bind_congr ?_
  rintro ⟨values, padding⟩
  match values with
  | [] => rfl
  | [_] => rfl
  | [p, q] => rfl
  | [p, q, r] => rfl
  | p :: q :: r :: s :: _ => rfl

theorem eq_encode_of_decodeLast (hshort : symbols.length ≤ 4)
    (h : decodeLast start symbols = .ok bytes) : symbols = encode bytes := by
  rw [decodeLast_eq_bind] at h
  obtain ⟨⟨values, padding⟩, hsymbols, hbytes⟩ := bind_eq_ok_iff.mp h
  obtain ⟨rfl, hlt, hpadding⟩ := lastSymbols_eq_ok_iff.mp hsymbols
  simp only [List.length_append, List.length_map, List.length_replicate] at hshort
  clear h hsymbols
  match values with
  | [] =>
    cases hbytes
    have hzero : padding = 0 := by
      simp only [List.length_nil] at hpadding
      omega
    rw [hzero]
    rfl
  | [_] => cases hbytes
  | [p, q] =>
    simp only [List.forall_mem_cons] at hlt
    simp only [lastBytes] at hbytes
    split_ifs at hbytes with htwo hclear
    cases hbytes
    rw [encode_pair hlt.1 hlt.2.1 (Decidable.not_not.mp hclear), Decidable.not_not.mp htwo]
  | [p, q, r] =>
    simp only [List.forall_mem_cons] at hlt
    simp only [lastBytes] at hbytes
    split_ifs at hbytes with hone hclear
    cases hbytes
    rw [encode_three hlt.1 hlt.2.1 hlt.2.2.1 (Decidable.not_not.mp hclear),
      Decidable.not_not.mp hone]
  | p :: q :: r :: s :: more =>
    simp only [List.forall_mem_cons] at hlt
    cases hbytes
    simp only [List.length_cons] at hshort
    obtain rfl : more = [] := List.eq_nil_of_length_eq_zero (by omega)
    have hzero : padding = 0 := by omega
    have hgroup := encode_triple hlt.1 hlt.2.1 hlt.2.2.1 hlt.2.2.2.1 []
    rw [List.append_nil] at hgroup
    rw [hgroup, hzero]
    rfl

/-- Three bytes make four numbers below 64. -/
theorem sextets_lt (a b c : UInt8) : a.toNat / 4 < 64 ∧ a.toNat % 4 * 16 + b.toNat / 16 < 64 ∧
    b.toNat % 16 * 4 + c.toNat / 64 < 64 ∧ c.toNat % 64 < 64 := by
  have ha := a.toNat_lt
  have hb := b.toNat_lt
  have hc := c.toNat_lt
  omega

theorem decodeLast_encode (hshort : (encode bytes).length ≤ 4) :
    decodeLast start (encode bytes) = .ok bytes := by
  rw [decodeLast_eq_bind]
  match bytes with
  | [] => rfl
  | [a] =>
    obtain ⟨hp, hq, -⟩ := sextets_lt a 0 0
    have hsymbols : lastSymbols start 0 (encode [a]) =
        .ok ([a.toNat / 4, a.toNat % 4 * 16], 2) :=
      lastSymbols_eq_ok_iff.mpr ⟨rfl, by simpa using ⟨hp, hq⟩, fun _ => Nat.le_refl 2⟩
    have ha : UInt8.ofNat (a.toNat / 4 * 4 + a.toNat % 4 * 16 / 16) = a :=
      ofNat_first_byte a (Nat.succ_pos 15)
    rw [hsymbols, ok_bind, lastBytes, if_neg fun h => h rfl, if_neg (by omega), ha]
  | [a, b] =>
    obtain ⟨hp, hq, hr, -⟩ := sextets_lt a b 0
    have hsymbols : lastSymbols start 0 (encode [a, b]) =
        .ok ([a.toNat / 4, a.toNat % 4 * 16 + b.toNat / 16, b.toNat % 16 * 4], 1) :=
      lastSymbols_eq_ok_iff.mpr ⟨rfl, by simpa using ⟨hp, hq, hr⟩, fun _ => Nat.le_add_left 2 1⟩
    have hb := b.toNat_lt
    have hhigh : b.toNat / 16 < 16 := by omega
    have hfirst := ofNat_first_byte a hhigh
    have hsecond : UInt8.ofNat
        ((a.toNat % 4 * 16 + b.toNat / 16) * 16 + b.toNat % 16 * 4 / 4) = b :=
      ofNat_second_byte a b (Nat.succ_pos 3)
    rw [hsymbols, ok_bind, lastBytes, if_neg fun h => h rfl, if_neg (by omega), hfirst, hsecond]
  | [a, b, c] =>
    obtain ⟨hp, hq, hr, hs⟩ := sextets_lt a b c
    have hsymbols : lastSymbols start 0 (encode [a, b, c]) =
        .ok ([a.toNat / 4, a.toNat % 4 * 16 + b.toNat / 16, b.toNat % 16 * 4 + c.toNat / 64,
          c.toNat % 64], 0) :=
      lastSymbols_eq_ok_iff.mpr ⟨rfl, by simpa using ⟨hp, hq, hr, hs⟩, nofun⟩
    rw [hsymbols, ok_bind, lastBytes, triple_of_bytes]
  | a :: b :: c :: d :: rest =>
    have hfour := four_dvd_length_encode (d :: rest)
    have hlast : 0 < (encode (d :: rest)).length := by
      rcases rest with _ | ⟨_, _ | ⟨_, _⟩⟩ <;> exact Nat.succ_pos _
    simp only [encode, List.length_cons] at hshort
    omega

/-! ## The whole text -/

theorem decodeFrom_eq_ok_iff : decodeFrom start text = .ok bytes ↔ text = encode bytes := by
  -- By the recursion of the decoder: four symbols with more behind them, or the last group.
  induction start, text using decodeFrom.induct generalizing bytes with
  | case1 start a b c d e rest ih =>
    rw [decodeFrom]
    simp only [bind_eq_ok_iff, valueAt_eq_ok_iff, ih]
    constructor
    · rintro ⟨p, ⟨rfl, hp⟩, q, ⟨rfl, hq⟩, r, ⟨rfl, hr⟩, s, ⟨rfl, hs⟩, more, hmore, h⟩
      cases h
      rw [encode_triple hp hq hr hs, hmore]
      rfl
    · intro h
      match bytes with
      | [] => cases h
      | [x] => cases h
      | [x, y] => cases h
      | x :: y :: z :: more =>
        obtain ⟨hp, hq, hr, hs⟩ := sextets_lt x y z
        simp only [encode, List.cons.injEq] at h
        obtain ⟨rfl, rfl, rfl, rfl, hmore⟩ := h
        refine ⟨_, ⟨rfl, hp⟩, _, ⟨rfl, hq⟩, _, ⟨rfl, hr⟩, _, ⟨rfl, hs⟩, more, hmore, ?_⟩
        rw [triple_of_bytes]
        rfl
  | case2 start symbols hshort =>
    have hlength : symbols.length ≤ 4 := by
      rcases symbols with _ | ⟨a, _ | ⟨b, _ | ⟨c, _ | ⟨d, _ | ⟨e, rest⟩⟩⟩⟩⟩
      all_goals first | exact absurd rfl (hshort a b c d e rest) | simp
    rw [decodeFrom]
    · constructor
      · exact eq_encode_of_decodeLast hlength
      · rintro rfl
        exact decodeLast_encode hlength
    · exact hshort

/-- Nothing is noticed before the decoding of an encoding. -/
theorem strayEnd?_encode (bytes : List UInt8) : strayEnd? (encode bytes) = none := by
  have hfour := four_dvd_length_encode bytes
  exact if_neg (by omega)

theorem decode_eq_ok_iff : decode text = .ok bytes ↔ text = encode bytes := by
  constructor
  · intro h
    unfold decode at h
    split at h
    · cases h
    · exact decodeFrom_eq_ok_iff.mp h
  · rintro rfl
    rw [decode, strayEnd?_encode]
    exact decodeFrom_eq_ok_iff.mpr rfl

/-- Encoded text has nothing but symbols and padding. -/
theorem pad_or_symbol_of_mem_encode (bytes : List UInt8) :
    ∀ c ∈ encode bytes, c = pad ∨ ∃ v < 64, c = symbol v := by
  induction bytes using encode.induct with
  | case1 => nofun
  | case2 a =>
    obtain ⟨hp, hq, -⟩ := sextets_lt a 0 0
    simp only [encode, List.forall_mem_cons]
    exact ⟨.inr ⟨_, hp, rfl⟩, .inr ⟨_, hq, rfl⟩, .inl trivial, .inl trivial, nofun⟩
  | case3 a b =>
    obtain ⟨hp, hq, hr, -⟩ := sextets_lt a b 0
    simp only [encode, List.forall_mem_cons]
    exact ⟨.inr ⟨_, hp, rfl⟩, .inr ⟨_, hq, rfl⟩, .inr ⟨_, hr, rfl⟩, .inl trivial, nofun⟩
  | case4 a b c rest ih =>
    obtain ⟨hp, hq, hr, hs⟩ := sextets_lt a b c
    simp only [encode, List.forall_mem_cons]
    exact ⟨.inr ⟨_, hp, rfl⟩, .inr ⟨_, hq, rfl⟩, .inr ⟨_, hr, rfl⟩, .inr ⟨_, hs, rfl⟩, ih⟩

end Base64
end AccessControl
