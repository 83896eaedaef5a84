import Mathlib
import Ethernet.Address.Mac

/-! Reading and writing station addresses: reading accepts exactly the texts of six groups with
separators, every address reads back from its text, and writing what was read gives the text
back up to case, separators and signs. -/
namespace Ethernet

namespace Hex

theorem toNat_lt_of_value? {c : Char} {n : Nat} (h : value? c = some n) : c.toNat < 128 := by
  unfold value? at h
  have below : ∀ d : Char, d.toNat < 128 → c ≤ d → c.toNat < 128 := fun d small le => by
    rw [Char.le_def, UInt32.le_iff_toNat_le] at le
    exact Nat.lt_of_le_of_lt le small
  split_ifs at h with digit lower upper
  · exact below '9' (by decide) digit.2
  · exact below 'f' (by decide) lower.2
  · exact below 'F' (by decide) upper.2

theorem digit_of_value? {c : Char} {n : Nat} (h : value? c = some n) :
    digit true n = c.toUpper ∧ n < 16 := by
  -- the digits are ASCII, so checking the first 128 characters settles it
  have ascii : ∀ k < 128, ∀ n, value? (Char.ofNat k) = some n →
      digit true n = (Char.ofNat k).toUpper ∧ n < 16 := by decide
  rw [← Char.ofNat_toNat c] at h ⊢
  exact ascii c.toNat (toNat_lt_of_value? (by rwa [Char.ofNat_toNat] at h)) n h

theorem value?_digit {n : Nat} (h : n < 16) : value? (digit true n) = some n := by
  have each : ∀ n < 16, value? (digit true n) = some n := by decide
  exact each n h

end Hex

namespace MacAddress

/-! ### Groups -/

/-- `g` is a text of the octet `b`: two digits, or a plus sign and one digit. -/
inductive OctetText : List Char → UInt8 → Prop
  | digits {h l : Char} {a b : Nat} : Hex.value? h = some a → Hex.value? l = some b →
      OctetText [h, l] (a * 16 + b).toUInt8
  | signed {d : Char} {a : Nat} : Hex.value? d = some a → OctetText ['+', d] a.toUInt8

theorem octet?_eq_some_iff {g : List Char} {b : UInt8} : octet? g = some b ↔ OctetText g b := by
  constructor
  · intro read
    unfold octet? at read
    split at read
    · obtain ⟨a, value, rfl⟩ := Option.map_eq_some_iff.mp read
      exact .signed value
    · simp only [Option.bind_eq_bind, Option.bind_eq_some_iff, Option.pure_def,
        Option.some.injEq] at read
      obtain ⟨a, high, b, low, rfl⟩ := read
      exact .digits high low
    · cases read
  · rintro (@⟨h, l, a, b, high, low⟩ | @⟨d, a, value⟩)
    · -- a sign has no value, so a digit pair never takes the signed branch
      have unsigned : h ≠ '+' := fun sign => by simp [sign, Hex.value?] at high
      simp [octet?.eq_2 h l unsigned, high, low]
    · simp [octet?, value]

theorem OctetText.separator_free {g : List Char} {b : UInt8} (text : OctetText g b) :
    ∀ c ∈ g, isSeparator c = false := by
  have digitFree : ∀ {c n}, Hex.value? c = some n → isSeparator c = false := fun {c n} value => by
    cases sep : isSeparator c
    · rfl
    · simp only [isSeparator, Bool.or_eq_true, beq_iff_eq] at sep
      rcases sep with rfl | rfl <;> simp [Hex.value?] at value
  cases text with
  | digits high low => simpa using ⟨digitFree high, digitFree low⟩
  | signed value => simpa [isSeparator] using digitFree value

/-- Writing an octet that a group names gives that group, upper-cased, with a sign written
as `0`. -/
theorem OctetText.pair_eq {g : List Char} {b : UInt8} (text : OctetText g b) :
    Hex.pair true b = g.map fun c => if c = '+' then '0' else c.toUpper := by
  cases text with
  | @digits h l a b high low =>
    obtain ⟨highUpper, highSmall⟩ := Hex.digit_of_value? high
    obtain ⟨lowUpper, lowSmall⟩ := Hex.digit_of_value? low
    have signless : ∀ {c n}, Hex.value? c = some n → c ≠ '+' := fun {c n} value sign => by
      simp [sign, Hex.value?] at value
    have octet : ((a * 16 + b).toUInt8).toNat = a * 16 + b := by
      simp only [Nat.toUInt8_eq]
      exact Nat.mod_eq_of_lt (by omega)
    simp only [Hex.pair, octet, List.map_cons, List.map_nil, if_neg (signless high),
      if_neg (signless low), ← highUpper, ← lowUpper]
    congr 3 <;> omega
  | @signed d a value =>
    obtain ⟨upper, small⟩ := Hex.digit_of_value? value
    have octet : (a.toUInt8).toNat = a := by
      simp only [Nat.toUInt8_eq]
      exact Nat.mod_eq_of_lt (by omega)
    have signless : d ≠ '+' := fun sign => by simp [sign, Hex.value?] at value
    simp only [Hex.pair, octet, List.map_cons, List.map_nil, if_neg signless, ← upper]
    simp [Nat.div_eq_of_lt small, Nat.mod_eq_of_lt small, Hex.digit]

theorem octetText_pair (b : UInt8) : OctetText (Hex.pair true b) b := by
  have small : b.toNat < 256 := b.toNat_lt
  have high := Hex.value?_digit (n := b.toNat / 16) (by omega)
  have low := Hex.value?_digit (n := b.toNat % 16) (by omega)
  have named := OctetText.digits high low
  rwa [Nat.div_add_mod', Nat.toUInt8_eq, UInt8.ofNat_toNat] at named

/-! ### Splitting a text into groups -/

/-- A first group, then groups each after one separator: `g₀ c₁ g₁ … cₙ gₙ`. -/
def joinGroups (first : List Char) (rest : List (Char × List Char)) : List Char :=
  first ++ rest.flatMap fun x => x.1 :: x.2

theorem groups_eq_splitOnP (text : List Char) : groups text = text.splitOnP isSeparator := by
  induction text with
  | nil => rfl
  | cons c cs ih =>
    rw [List.splitOnP_cons_eq_if_modifyHead, ← ih, groups]
    split
    · rfl
    · -- the groups of a text are never none at all
      cases split : groups cs with
      | nil => exact absurd (ih ▸ split) (List.splitOnP_ne_nil _ _)
      | cons g gs => rfl

theorem groups_joinGroups {first : List Char} {rest : List (Char × List Char)}
    (firstFree : ∀ c ∈ first, isSeparator c = false)
    (restFree : ∀ x ∈ rest, isSeparator x.1 = true ∧ ∀ c ∈ x.2, isSeparator c = false) :
    groups (joinGroups first rest) = first :: rest.map Prod.snd := by
  induction rest generalizing first with
  | nil =>
    rw [joinGroups, List.flatMap_nil, List.append_nil, groups_eq_splitOnP]
    exact List.splitOnP_eq_singleton firstFree
  | cons x rest ih =>
    have ⟨separator, groupFree⟩ := restFree x List.mem_cons_self
    have tail := ih groupFree fun y member => restFree y (List.mem_cons_of_mem x member)
    rw [joinGroups, groups_eq_splitOnP] at tail ⊢
    rw [List.flatMap_cons, List.cons_append,
      List.splitOnP_append_cons_of_forall_mem firstFree x.1 separator, tail]
    rfl

theorem exists_joinGroups (text : List Char) : ∃ first rest,
    groups text = first :: rest.map Prod.snd ∧ text = joinGroups first rest ∧
      ∀ x ∈ rest, isSeparator x.1 = true := by
  induction text with
  | nil => exact ⟨[], [], rfl, rfl, by simp⟩
  | cons c cs ih =>
    obtain ⟨first, rest, split, joined, separators⟩ := ih
    by_cases sep : isSeparator c = true
    · refine ⟨[], (c, first) :: rest, ?_, ?_, ?_⟩
      · simp [groups, sep, split]
      · simp [joinGroups, joined]
      · simpa [sep] using separators
    · refine ⟨c :: first, rest, ?_, ?_, separators⟩
      · simp [groups, sep, split]
      · simp [joinGroups, joined]

/-! ### The texts of an address -/

/-- `text` spells `m`: six groups naming its octets in order, with a separator between each
two. -/
def Spells (text : List Char) (m : MacAddress) : Prop :=
  ∃ first rest, text = joinGroups first rest ∧ (∀ x ∈ rest, isSeparator x.1 = true) ∧
    List.Forall₂ OctetText (first :: rest.map Prod.snd) m.toList

@[simp] theorem toList_ofOctets (a b c d e f : UInt8) :
    (ofOctets a b c d e f).toList = [a, b, c, d, e, f] := rfl

theorem exists_eq_ofOctets (m : MacAddress) : ∃ a b c d e f, m = ofOctets a b c d e f := by
  obtain ⟨⟨⟨list⟩, size⟩⟩ := m
  rcases list with _ | ⟨a, _ | ⟨b, _ | ⟨c, _ | ⟨d, _ | ⟨e, _ | ⟨f, _ | ⟨g, rest⟩⟩⟩⟩⟩⟩⟩ <;>
    simp at size
  exact ⟨a, b, c, d, e, f, rfl⟩

theorem parse?_eq_some_iff (s : String) (m : MacAddress) : parse? s = some m ↔ Spells s.toList m := by
  obtain ⟨first, rest, split, joined, separators⟩ := exists_joinGroups s.toList
  constructor
  · intro read
    unfold parse? at read
    rw [split] at read
    split at read
    · rename_i g₀ g₁ g₂ g₃ g₄ g₅ six
      simp only [Option.pure_def, Option.bind_eq_bind, Option.bind_eq_some_iff,
        Option.some.injEq] at read
      obtain ⟨o₀, h₀, o₁, h₁, o₂, h₂, o₃, h₃, o₄, h₄, o₅, h₅, rfl⟩ := read
      refine ⟨first, rest, joined, separators, ?_⟩
      simp only [six, toList_ofOctets, List.forall₂_cons, List.Forall₂.nil, and_true,
        ← octet?_eq_some_iff]
      exact ⟨h₀, h₁, h₂, h₃, h₄, h₅⟩
    · cases read
  · rintro ⟨first', rest', spelled, separators', named⟩
    obtain ⟨o₀, o₁, o₂, o₃, o₄, o₅, rfl⟩ := exists_eq_ofOctets m
    simp only [toList_ofOctets, List.forall₂_cons_right_iff, List.forall₂_nil_right_iff] at named
    obtain ⟨g₀, _, h₀, ⟨g₁, _, h₁, ⟨g₂, _, h₂, ⟨g₃, _, h₃, ⟨g₄, _, h₄, ⟨g₅, _, h₅, rfl, rfl⟩,
      rfl⟩, rfl⟩, rfl⟩, rfl⟩, six⟩ := named
    have free : ∀ g ∈ first' :: rest'.map Prod.snd, ∀ c ∈ g, isSeparator c = false := by
      rw [six]
      simp only [List.mem_cons, List.not_mem_nil, or_false]
      rintro g (rfl | rfl | rfl | rfl | rfl | rfl)
      exacts [h₀.separator_free, h₁.separator_free, h₂.separator_free, h₃.separator_free,
        h₄.separator_free, h₅.separator_free]
    have split' := groups_joinGroups (free first' List.mem_cons_self)
      fun x member => ⟨separators' x member, free x.2 (List.mem_cons_of_mem _ (List.mem_map_of_mem member))⟩
    rw [← spelled, six] at split'
    rw [← octet?_eq_some_iff] at h₀ h₁ h₂ h₃ h₄ h₅
    simp [parse?, split', h₀, h₁, h₂, h₃, h₄, h₅]

/-! ### Writing -/

theorem intercalate_eq_joinGroups (sep : Char) (first : List Char) (rest : List (List Char)) :
    [sep].intercalate (first :: rest) = joinGroups first (rest.map (sep, ·)) := by
  induction rest generalizing first with
  | nil => simp [joinGroups]
  | cons g rest ih => simp [List.intercalate_cons_cons, ih, joinGroups]

theorem toList_render (m : MacAddress) :
    m.render.toList = [':'].intercalate (m.toList.map (Hex.pair true)) := by
  simp [render, Hex.byteUpper, Function.comp_def]

theorem spells_render (m : MacAddress) : Spells m.render.toList m := by
  obtain ⟨o₀, o₁, o₂, o₃, o₄, o₅, rfl⟩ := exists_eq_ofOctets m
  refine ⟨Hex.pair true o₀, [o₁, o₂, o₃, o₄, o₅].map fun b => (':', Hex.pair true b), ?_,
    by simp [isSeparator], ?_⟩
  · rw [toList_render, toList_ofOctets, List.map_cons, intercalate_eq_joinGroups]
    simp
  · simp [octetText_pair]

/-- The character written back for a character of an accepted text. -/
def canonical (c : Char) : Char :=
  if c = '-' then ':' else if c = '+' then '0' else c.toUpper

theorem map_canonical_joinGroups (first : List Char) (rest : List (Char × List Char))
    (separators : ∀ x ∈ rest, isSeparator x.1 = true) :
    (joinGroups first rest).map canonical =
      [':'].intercalate ((first :: rest.map Prod.snd).map (List.map canonical)) := by
  induction rest generalizing first with
  | nil => simp [joinGroups]
  | cons x rest ih =>
    have written : canonical x.1 = ':' := by
      have sep := separators x List.mem_cons_self
      simp only [isSeparator, Bool.or_eq_true, beq_iff_eq] at sep
      rcases sep with h | h <;> simp [canonical, h]
    have tail := ih x.2 fun y member => separators y (List.mem_cons_of_mem x member)
    simp only [joinGroups, List.map_append, List.flatMap_cons, List.map_cons] at tail ⊢
    rw [List.cons_append, written, tail, List.intercalate_cons_cons]
    simp

theorem pair_eq_map_canonical {g : List Char} {b : UInt8} (text : OctetText g b) :
    Hex.pair true b = g.map canonical := by
  rw [text.pair_eq]
  refine List.map_congr_left fun c member => ?_
  have free := text.separator_free c member
  have notDash : c ≠ '-' := fun dash => by simp [dash, isSeparator] at free
  simp [canonical, notDash]

/-- Reading accepts exactly the texts that spell an address; every address reads back from its
text; and the text of what was read is the text read, mapped by `canonical`. -/
theorem parse_reads_spelled_text (s : String) (m : MacAddress) :
    (parse? s = some m ↔ Spells s.toList m) ∧
    parse? m.render = some m ∧
    (parse? s = some m → m.render.toList = s.toList.map canonical) := by
  refine ⟨parse?_eq_some_iff s m, (parse?_eq_some_iff _ m).mpr (spells_render m), ?_⟩
  intro read
  obtain ⟨first, rest, spelled, separators, named⟩ := (parse?_eq_some_iff s m).mp read
  rw [toList_render, spelled, map_canonical_joinGroups first rest separators]
  congr 1
  -- group by group, the octet written back is the group mapped by `canonical`
  generalize first :: rest.map Prod.snd = gs at named ⊢
  generalize m.toList = os at named ⊢
  induction named with
  | nil => rfl
  | cons text _ ih => rw [List.map_cons, List.map_cons, pair_eq_map_canonical text, ih]

theorem dashed_text_read_back :
    parse? "02-80-e1-00-00-0a" = some (ofOctets 0x02 0x80 0xE1 0x00 0x00 0x0A) ∧
      (ofOctets 0x02 0x80 0xE1 0x00 0x00 0x0A).render.toList =
        "02-80-e1-00-00-0a".toList.map canonical :=
  have read : parse? "02-80-e1-00-00-0a" = some (ofOctets 0x02 0x80 0xE1 0x00 0x00 0x0A) := by
    decide
  ⟨read, (parse_reads_spelled_text _ _).2.2 read⟩

/-- A signed group is read: a text with a group that is not two digits is accepted, and it is
written back with the sign as `0`. -/
theorem signed_group_accepted :
    parse? "+2:80:e1:00:00:0a" = some (ofOctets 0x02 0x80 0xE1 0x00 0x00 0x0A) ∧
      (ofOctets 0x02 0x80 0xE1 0x00 0x00 0x0A).render = "02:80:E1:00:00:0A" := by
  decide

end MacAddress

end Ethernet
