import Mathlib.Data.List.Forall2
import SignalHub.Json.Decode
import SignalHub.Proofs.Lexemes
/-!
# JSON read back

A value without doubles, whose integers are within range, is read from its text as it was written:
as a node without faults, with nothing left over. No value is longer than its text, so there is fuel
for every step. Kept for later such a node is the value again, if it is not nested too deeply.

Results:
* `Json.Transcribed`: as which value the text of a value is read.
* `Json.Plain`: values without doubles, integers within range, nested at most so deep.
* `Plain.transcribed`: the text of such a value reads back.
* `settle_ofJson`: what is kept of it is the value.
* `spelled_render`: the text of a value is spelled in UTF-8.
* `Codec.ofText_of_render`: decoding the text of a value.
-/
namespace SignalHub.Json

/-- A value without doubles, with integers within range, nested at most so deep. -/
inductive Plain : Nat → Json → Prop
  | null {depth : Nat} : Plain depth .null
  | bool {depth : Nat} {b : Bool} : Plain depth (.bool b)
  | int {depth : Nat} {i : Int} (h : Exact i) : Plain depth (.num (.int i))
  | str {depth : Nat} {s : String} : Plain depth (.str s)
  | arr {depth : Nat} {items : List Json} (h : ∀ j ∈ items, Plain depth j) :
      Plain (depth + 1) (.arr items)
  | obj {depth : Nat} {members : List (String × Json)} (h : ∀ m ∈ members, Plain depth m.2) :
      Plain (depth + 1) (.obj members)

variable {depth fuel : Nat} {j i : Json} {rest : List UInt8}

/-- What is nested less deeply is not nested too deeply. -/
theorem Plain.mono {depth' : Nat} (h : Plain depth j) (hle : depth ≤ depth') : Plain depth' j := by
  induction h generalizing depth' with
  | null => exact .null
  | bool => exact .bool
  | int h => exact .int h
  | str => exact .str
  | arr _ ih =>
    obtain ⟨deeper, rfl⟩ : ∃ deeper, depth' = deeper + 1 := ⟨depth' - 1, by omega⟩
    exact .arr fun j hj => ih j hj (by omega)
  | obj _ ih =>
    obtain ⟨deeper, rfl⟩ : ∃ deeper, depth' = deeper + 1 := ⟨depth' - 1, by omega⟩
    exact .obj fun m hm => ih m hm (by omega)

/-! ## From text -/

/-- The blanks. -/
def blanks : List UInt8 := [0x20, 0x0A, 0x0D, 0x09]

/-- The text of `j` begins with no blank and no closing bracket, and it is read as `i`, whatever
closes it. -/
structure Transcribed (j i : Json) : Prop where
  begins : ∃ b tail, render j = b :: tail ∧ b ∉ blanks ∧ b ≠ 0x5D
  reads : ∀ {fuel rest}, (render j).length < fuel → Closes rest →
    parseValue fuel (render j ++ rest) = (Node.ofJson i, some rest)

/-- Two members of one name, the value of the first being read as that of the second. -/
structure MemberTranscribed (m m' : String × Json) : Prop where
  name : m.1 = m'.1
  value : Transcribed m.2 m'.2

theorem skipBlanks_cons {b : UInt8} (hb : b ∉ blanks) (rest : List UInt8) :
    skipBlanks (b :: rest) = b :: rest := by
  simp only [blanks, List.mem_cons, List.not_mem_nil, or_false, not_or] at hb
  simp [skipBlanks, hb]

theorem closes_cons {b : UInt8} (hb : digitOf? b = none ∧ b ≠ 0x2E ∧ b ≠ 0x65 ∧ b ≠ 0x45)
    (rest : List UInt8) : Closes (b :: rest) := by
  rintro _ ⟨⟩
  exact hb

theorem bytes_null : Text.bytes "null" = [0x6E, 0x75, 0x6C, 0x6C] := by decide

theorem bytes_true : Text.bytes "true" = [0x74, 0x72, 0x75, 0x65] := by decide

theorem bytes_false : Text.bytes "false" = [0x66, 0x61, 0x6C, 0x73, 0x65] := by decide

theorem transcribed_null : Transcribed .null .null where
  begins := ⟨_, _, by rw [render, bytes_null], by decide⟩
  reads {fuel rest} hfuel _ := by
    cases fuel with
    | zero => exact absurd hfuel (Nat.not_lt_zero _)
    | succ fuel =>
      rw [render, bytes_null]
      rfl

theorem transcribed_bool (b : Bool) : Transcribed (.bool b) (.bool b) where
  begins := by
    cases b with
    | false => exact ⟨_, _, by rw [render, if_neg Bool.false_ne_true, bytes_false], by decide⟩
    | true => exact ⟨_, _, by rw [render, if_pos rfl, bytes_true], by decide⟩
  reads {fuel rest} hfuel _ := by
    cases fuel with
    | zero => exact absurd hfuel (Nat.not_lt_zero _)
    | succ fuel =>
      cases b with
      | false =>
        rw [render, if_neg Bool.false_ne_true, bytes_false]
        rfl
      | true =>
        rw [render, if_pos rfl, bytes_true]
        rfl

/-- A quoted text is read as such. -/
theorem parseValue_renderText (s : String) (fuel : Nat) (rest : List UInt8) :
    parseValue (fuel + 1) (renderText s ++ rest) = (.str (Node.usable s), some rest) := by
  have htext := parseText_escape s rest
  simp only [renderText, List.cons_append, List.append_assoc, List.nil_append]
  rw [parseValue, skipBlanks_cons (by decide)]
  exact htext

theorem transcribed_str (s : String) : Transcribed (.str s) (.str s) where
  begins := ⟨_, _, rfl, by decide⟩
  reads {fuel rest} hfuel _ := by
    cases fuel with
    | zero => exact absurd hfuel (Nat.not_lt_zero _)
    | succ fuel => exact parseValue_renderText s fuel rest

/-- The bytes that are skipped or begin something else than a number. -/
def otherBegins : List UInt8 :=
  [0x20, 0x0A, 0x0D, 0x09, 0x22, 0x5B, 0x5D, 0x7B, 0x6E, 0x74, 0x66]

theorem begins_no_number : ∀ b ∈ otherBegins, ¬ (b = 0x2D ∨ (digitOf? b).isSome) := by
  simp [otherBegins, digitOf?]

/-- A number is read as the parser of numbers reads it. -/
theorem transcribed_num {n n' : Number}
    (hbegins : ∃ b bs, Text.bytes (numberText n) = b :: bs ∧ (b = 0x2D ∨ (digitOf? b).isSome))
    (hread : ∀ {rest}, Closes rest → parseNumber (Text.bytes (numberText n) ++ rest) =
      (Node.ofJson (.num n'), some rest)) : Transcribed (.num n) (.num n') := by
  obtain ⟨b, bs, hbytes, hb⟩ := hbegins
  have hrender : render (.num n) = b :: bs := by rw [render, hbytes]
  have hnot : b ∉ otherBegins := fun h => begins_no_number b h hb
  simp only [otherBegins, List.mem_cons, List.not_mem_nil, or_false, not_or] at hnot
  have hblank : b ∉ blanks := by simp [blanks, hnot]
  refine ⟨⟨b, bs, hrender, hblank, hnot.2.2.2.2.2.2.1⟩, fun {fuel rest} hfuel hrest => ?_⟩
  cases fuel with
  | zero => exact absurd hfuel (Nat.not_lt_zero _)
  | succ fuel =>
    have hnumber := hread hrest
    rw [hbytes, List.cons_append] at hnumber
    rw [hrender, List.cons_append, parseValue, skipBlanks_cons hblank]
    simp [hnot, hb, hnumber]

theorem transcribed_int {n : Int} (hn : Exact n) :
    Transcribed (.num (.int n)) (.num (.int n)) := by
  have hbegins := exists_cons_parts (decide (n < 0)) (Text.canonical_toDigits n.natAbs) []
  rw [List.append_nil, ← bytes_toString_int] at hbegins
  exact transcribed_num hbegins fun hrest => parseNumber_toString hn hrest

/-- Items after an opening bracket read back. -/
theorem parseItems_render {items items' : List Json}
    (hitems : List.Forall₂ Transcribed items items') (hj : Transcribed j i)
    (hfuel : (render j).length + (renderItems items).length < fuel) (rest : List UInt8) :
    parseItems fuel (render j ++ (renderItems items ++ rest)) =
      (Node.ofJson i :: Node.ofItems items', none, some rest) := by
  induction hitems generalizing fuel j i with
  | nil =>
    cases fuel with
    | zero => exact absurd hfuel (Nat.not_lt_zero _)
    | succ fuel =>
      rw [renderItems, List.length_singleton] at hfuel
      rw [parseItems, renderItems, List.singleton_append,
        hj.reads (by omega) (closes_cons (by decide) _)]
      rfl
  | @cons j' i' items items' hj' hitems ih =>
    cases fuel with
    | zero => exact absurd hfuel (Nat.not_lt_zero _)
    | succ fuel =>
      simp only [renderItems, List.length_cons, List.cons_append, List.length_append] at hfuel
      have hfuel' : (render j').length + (renderItems items).length < fuel := by omega
      have hrest := ih hj' hfuel'
      rw [parseItems, renderItems, List.cons_append, List.cons_append, List.append_assoc,
        hj.reads (by omega) (closes_cons (by decide) _)]
      simp only [skipBlanks_cons (show (0x2C : UInt8) ∉ blanks by decide), hrest]
      rfl

/-- The members of an object as text, without the brace that opens it. -/
def membersText (k : String) (j : Json) (members : List (String × Json)) : List UInt8 :=
  renderText k ++ 0x3A :: (render j ++ renderMembers members)

/-- The last member of an object. -/
theorem parseMembers_last {k : String} (hj : Transcribed j i)
    (hk : (renderText k).length < fuel) (hfuel : (render j).length < fuel) (rest : List UInt8) :
    parseMembers (fuel + 1) (renderText k ++ 0x3A :: (render j ++ 0x7D :: rest)) =
      ([(.str (Node.usable k), Node.ofJson i)], none, some rest) := by
  have hkey : parseValue fuel (renderText k ++ 0x3A :: (render j ++ 0x7D :: rest)) =
      (.str (Node.usable k), some (0x3A :: (render j ++ 0x7D :: rest))) :=
    (transcribed_str k).reads hk (closes_cons (by decide) _)
  have hvalue : parseValue fuel (render j ++ 0x7D :: rest) = (Node.ofJson i, some (0x7D :: rest)) :=
    hj.reads hfuel (closes_cons (by decide) _)
  rw [parseMembers, hkey]
  simp only [skipBlanks_cons (show (0x3A : UInt8) ∉ blanks by decide), hvalue,
    skipBlanks_cons (show (0x7D : UInt8) ∉ blanks by decide)]

/-- A member of an object that another one follows. -/
theorem parseMembers_comma {k : String} (hj : Transcribed j i)
    (hk : (renderText k).length < fuel) (hfuel : (render j).length < fuel) (rest : List UInt8) :
    parseMembers (fuel + 1) (renderText k ++ 0x3A :: (render j ++ 0x2C :: rest)) =
      ((.str (Node.usable k), Node.ofJson i) :: (parseMembers fuel rest).1,
        (parseMembers fuel rest).2.1, (parseMembers fuel rest).2.2) := by
  have hkey : parseValue fuel (renderText k ++ 0x3A :: (render j ++ 0x2C :: rest)) =
      (.str (Node.usable k), some (0x3A :: (render j ++ 0x2C :: rest))) :=
    (transcribed_str k).reads hk (closes_cons (by decide) _)
  have hvalue : parseValue fuel (render j ++ 0x2C :: rest) = (Node.ofJson i, some (0x2C :: rest)) :=
    hj.reads hfuel (closes_cons (by decide) _)
  rw [parseMembers, hkey]
  simp only [skipBlanks_cons (show (0x3A : UInt8) ∉ blanks by decide), hvalue,
    skipBlanks_cons (show (0x2C : UInt8) ∉ blanks by decide)]

/-- Members after an opening brace read back. -/
theorem parseMembers_render {k : String} {members members' : List (String × Json)}
    (hmembers : List.Forall₂ MemberTranscribed members members') (hj : Transcribed j i)
    (hfuel : (membersText k j members).length < fuel) (rest : List UInt8) :
    parseMembers fuel (membersText k j members ++ rest) =
      ((.str (Node.usable k), Node.ofJson i) :: Node.ofMembers members', none, some rest) := by
  induction hmembers generalizing fuel k j i with
  | nil =>
    cases fuel with
    | zero => exact absurd hfuel (Nat.not_lt_zero _)
    | succ fuel =>
      simp only [membersText, renderMembers, List.length_append, List.length_cons,
        List.length_nil] at hfuel
      simp only [membersText, renderMembers, List.append_assoc, List.cons_append, List.nil_append]
      exact parseMembers_last hj (by omega) (by omega) rest
  | @cons m m' members members' hm hmembers ih =>
    obtain ⟨k', j'⟩ := m
    obtain ⟨k'', i'⟩ := m'
    obtain ⟨rfl, hvalue⟩ : k' = k'' ∧ Transcribed j' i' := ⟨hm.name, hm.value⟩
    have hcons : membersText k j ((k', j') :: members) =
        renderText k ++ 0x3A :: (render j ++ 0x2C :: membersText k' j' members) := by
      simp [membersText, renderMembers]
    rw [hcons] at hfuel ⊢
    cases fuel with
    | zero => exact absurd hfuel (Nat.not_lt_zero _)
    | succ fuel =>
      simp only [List.length_append, List.length_cons] at hfuel
      have hfuel' : (membersText k' j' members).length < fuel := by omega
      have hrest := ih hvalue hfuel'
      simp only [List.append_assoc, List.cons_append]
      rw [parseMembers_comma hj (by omega) (by omega), hrest]
      rfl

theorem transcribed_arr {items items' : List Json} (h : List.Forall₂ Transcribed items items') :
    Transcribed (.arr items) (.arr items') := by
  cases h with
  | nil =>
    refine ⟨⟨_, _, rfl, by decide⟩, fun {fuel rest} hfuel _ => ?_⟩
    cases fuel with
    | zero => exact absurd hfuel (Nat.not_lt_zero _)
    | succ fuel => rfl
  | @cons j i items items' hj hitems =>
    refine ⟨⟨_, _, by rw [render, List.cons_append], by decide⟩, fun {fuel rest} hfuel _ => ?_⟩
    cases fuel with
    | zero => exact absurd hfuel (Nat.not_lt_zero _)
    | succ fuel =>
      simp only [render, List.length_append, List.length_cons] at hfuel
      have hfuel' : (render j).length + (renderItems items).length < fuel := by omega
      have hitems := parseItems_render hitems hj hfuel' rest
      obtain ⟨b, tail, hbegins, hblank, hclose⟩ := hj.begins
      simp only [render, List.cons_append, List.append_assoc]
      rw [parseValue, skipBlanks_cons (by decide)]
      rw [hbegins] at hitems ⊢
      rw [List.cons_append] at hitems ⊢
      simp [skipBlanks_cons hblank, hclose, hitems, Node.ofJson, Node.ofItems]

theorem transcribed_obj {members members' : List (String × Json)}
    (h : List.Forall₂ MemberTranscribed members members') :
    Transcribed (.obj members) (.obj members') := by
  cases h with
  | nil =>
    refine ⟨⟨_, _, rfl, by decide⟩, fun {fuel rest} hfuel _ => ?_⟩
    cases fuel with
    | zero => exact absurd hfuel (Nat.not_lt_zero _)
    | succ fuel => rfl
  | @cons m m' members members' hm hmembers =>
    obtain ⟨k, j⟩ := m
    obtain ⟨k', i⟩ := m'
    obtain ⟨rfl, hvalue⟩ : k = k' ∧ Transcribed j i := ⟨hm.name, hm.value⟩
    have hrender : render (.obj ((k, j) :: members)) = 0x7B :: membersText k j members := by
      simp [render, membersText]
    refine ⟨⟨_, _, hrender, by decide⟩, fun {fuel rest} hfuel _ => ?_⟩
    rw [hrender] at hfuel ⊢
    cases fuel with
    | zero => exact absurd hfuel (Nat.not_lt_zero _)
    | succ fuel =>
      have hmembers := parseMembers_render hmembers hvalue (Nat.lt_of_succ_lt_succ hfuel) rest
      obtain ⟨tail, htail⟩ : ∃ tail, membersText k j members ++ rest = 0x22 :: tail := ⟨_, rfl⟩
      rw [List.cons_append, parseValue, skipBlanks_cons (by decide)]
      rw [htail] at hmembers ⊢
      simp [skipBlanks_cons (show (0x22 : UInt8) ∉ blanks by decide), hmembers, Node.ofJson,
        Node.ofMembers]

/-- The text of a value without doubles reads back. -/
theorem Plain.transcribed (h : Plain depth j) : Transcribed j j := by
  induction h with
  | null => exact transcribed_null
  | bool => exact transcribed_bool _
  | int h => exact transcribed_int h
  | str => exact transcribed_str _
  | arr _ ih => exact transcribed_arr (List.forall₂_same.2 ih)
  | obj _ ih => exact transcribed_obj (List.forall₂_same.2 fun m hm => ⟨rfl, ih m hm⟩)

/-- Nothing of a text is left. -/
theorem Transcribed.parse_render (h : Transcribed j i) :
    parse (render j) = (Node.ofJson i, some []) := by
  have hread : parseValue (2 * (render j).length + 2) (render j ++ []) = (Node.ofJson i, some []) :=
    h.reads (by omega) (by rintro _ ⟨⟩)
  rwa [List.append_nil] at hread

/-! ## Kept for later -/

theorem settleItems_ofItems {items : List Json}
    (h : ∀ j ∈ items, Node.settle depth (Node.ofJson j) = .ok j) :
    Node.settleItems depth (Node.ofItems items) = .ok items := by
  induction items with
  | nil => rfl
  | cons j items ih =>
    rw [Node.ofItems, Node.settleItems]
    exact bind_eq_ok (h j List.mem_cons_self)
      (bind_eq_ok (ih fun j hj => h j (List.mem_cons_of_mem _ hj)) rfl)

theorem settleMembers_ofMembers {members : List (String × Json)}
    (h : ∀ m ∈ members, Node.settle depth (Node.ofJson m.2) = .ok m.2) :
    Node.settleMembers depth (Node.ofMembers members) = .ok members := by
  induction members with
  | nil => rfl
  | cons m members ih =>
    obtain ⟨k, j⟩ := m
    rw [Node.ofMembers, Node.settleMembers]
    exact bind_eq_ok rfl (bind_eq_ok (h (k, j) List.mem_cons_self)
      (bind_eq_ok (ih fun m hm => h m (List.mem_cons_of_mem _ hm)) rfl))

/-- What is kept of a value that is not nested too deeply is the value. -/
theorem settle_ofJson (h : Plain depth j) : Node.settle depth (Node.ofJson j) = .ok j := by
  induction h with
  | null => rfl
  | bool => rfl
  | int h => rfl
  | str => rfl
  | arr _ ih => exact bind_eq_ok (settleItems_ofItems ih) rfl
  | obj _ ih => exact bind_eq_ok (settleMembers_ofMembers ih) rfl

/-! ## UTF-8 -/

/-- Whether bytes are spelled in UTF-8. -/
def Spelled (bs : List UInt8) : Prop := ∃ s, Text.bytes s = bs

theorem Spelled.append {bs bs' : List UInt8} (h : Spelled bs) (h' : Spelled bs') :
    Spelled (bs ++ bs') := by
  obtain ⟨s, rfl⟩ := h
  obtain ⟨t, rfl⟩ := h'
  exact ⟨s ++ t, Text.bytes_append s t⟩

theorem Spelled.flatMap {α : Type} {f : α → List UInt8} {as : List α}
    (h : ∀ a ∈ as, Spelled (f a)) : Spelled (as.flatMap f) := by
  induction as with
  | nil => exact ⟨"", rfl⟩
  | cons a as ih =>
    rw [List.flatMap_cons]
    exact (h a List.mem_cons_self).append (ih fun a ha => h a (List.mem_cons_of_mem _ ha))

theorem spelled_char (c : Char) : Spelled (String.utf8EncodeChar c) :=
  ⟨String.singleton c, by simp [Text.bytes_eq_flatMap]⟩

theorem utf8EncodeChar_ascii : ∀ n < 128, String.utf8EncodeChar (Char.ofNat n) = [.ofNat n] := by
  decide

theorem flatMap_singletons {f : UInt8 → List UInt8} {bs : List UInt8} (h : ∀ b ∈ bs, f b = [b]) :
    bs.flatMap f = bs := by
  induction bs with
  | nil => rfl
  | cons b bs ih =>
    rw [List.flatMap_cons, h b List.mem_cons_self, ih fun b hb => h b (List.mem_cons_of_mem _ hb)]
    rfl

theorem spelled_ascii {bs : List UInt8} (h : bs.all fun b => b.toNat < 128) : Spelled bs := by
  have hflat : bs.flatMap (fun b => String.utf8EncodeChar (Char.ofNat b.toNat)) = bs := by
    refine flatMap_singletons fun b hb => ?_
    have hlow : b.toNat < 128 := of_decide_eq_true (List.all_eq_true.1 h b hb)
    rw [utf8EncodeChar_ascii b.toNat hlow, UInt8.ofNat_toNat]
  rw [← hflat]
  exact .flatMap fun b _ => spelled_char _

-- As a test of the list: a quantifier over its members would be decided over all bytes.
theorem escapeByte_ascii : ∀ n < 128, (escapeByte (.ofNat n)).all fun b => b.toNat < 128 := by
  decide

/-- A byte of a character beyond the first 128. -/
theorem le_of_mem_utf8EncodeChar {c : Char} (hc : 127 < c.val.toNat) :
    ∀ b ∈ String.utf8EncodeChar c, 128 ≤ b.toNat := by
  have hvalid : c.val.toNat < 0xD800 ∨ 0xDFFF < c.val.toNat ∧ c.val.toNat < 0x110000 := c.valid
  simp only [String.utf8EncodeChar]
  generalize c.val.toNat = v at hvalid hc
  rw [if_neg (by omega)]
  intro b hb
  split at hb
  · simp only [List.mem_cons, List.not_mem_nil, or_false] at hb
    rcases hb with rfl | rfl <;> rw [UInt8.toNat_ofNat'] <;> omega
  · split at hb
    · simp only [List.mem_cons, List.not_mem_nil, or_false] at hb
      rcases hb with rfl | rfl | rfl <;> rw [UInt8.toNat_ofNat'] <;> omega
    · simp only [List.mem_cons, List.not_mem_nil, or_false] at hb
      rcases hb with rfl | rfl | rfl | rfl <;> rw [UInt8.toNat_ofNat'] <;> omega

/-- What is written for the bytes of a character is spelled in UTF-8. -/
theorem spelled_escape (c : Char) : Spelled ((String.utf8EncodeChar c).flatMap escapeByte) := by
  by_cases hc : 127 < c.val.toNat
  · have hplain : ∀ b ∈ String.utf8EncodeChar c, escapeByte b = [b] := by
      intro b hb
      have hle := le_of_mem_utf8EncodeChar hc b hb
      have hletter : b ∉ lettered := by
        intro hmem
        have hlow : ∀ b ∈ lettered, b.toNat < 128 := by simp [lettered]
        have hlt := hlow b hmem
        omega
      have hcontrol : ¬ b < 0x20 := by
        rw [UInt8.lt_iff_toNat_lt]
        exact Nat.not_lt.2 (Nat.le_trans (by decide) hle)
      rw [escapeByte_of_not_mem hletter, if_neg hcontrol]
    rw [flatMap_singletons hplain]
    exact spelled_char c
  · have hlt : c.toNat < 128 := Nat.lt_succ_of_le (Nat.le_of_not_lt hc)
    have hbytes := utf8EncodeChar_ascii c.toNat hlt
    rw [Char.ofNat_toNat] at hbytes
    rw [hbytes, List.flatMap_singleton]
    exact spelled_ascii (escapeByte_ascii c.toNat hlt)

theorem Spelled.cons {b : UInt8} {bs : List UInt8} (hb : b.toNat < 128) (h : Spelled bs) :
    Spelled (b :: bs) := by
  have hbyte : Spelled [b] := spelled_ascii (by simpa using hb)
  exact hbyte.append h

theorem spelled_renderText (s : String) : Spelled (renderText s) := by
  have hinner : Spelled ((Text.bytes s).flatMap escapeByte) := by
    rw [Text.bytes_eq_flatMap, List.flatMap_assoc]
    exact .flatMap fun c _ => spelled_escape c
  exact (hinner.cons (by decide)).append (spelled_ascii (by decide))

mutual

/-- The text of a value is spelled in UTF-8. -/
theorem spelled_render : (j : Json) → Spelled (render j)
  | .null => ⟨_, rfl⟩
  | .bool b => ⟨_, rfl⟩
  | .num n => ⟨_, rfl⟩
  | .str s => spelled_renderText s
  | .arr [] => spelled_ascii (by decide)
  | .arr (j :: rest) => ((spelled_render j).cons (by decide)).append (spelled_renderItems rest)
  | .obj [] => spelled_ascii (by decide)
  | .obj ((k, j) :: rest) =>
    (((spelled_renderText k).cons (by decide)).append ((spelled_render j).cons (by decide))).append
      (spelled_renderMembers rest)

theorem spelled_renderItems : (items : List Json) → Spelled (renderItems items)
  | [] => spelled_ascii (by decide)
  | j :: rest => ((spelled_render j).cons (by decide)).append (spelled_renderItems rest)

theorem spelled_renderMembers : (members : List (String × Json)) → Spelled (renderMembers members)
  | [] => spelled_ascii (by decide)
  | (k, j) :: rest =>
    (((spelled_renderText k).cons (by decide)).append ((spelled_render j).cons (by decide))).append
      (spelled_renderMembers rest)

end

/-! ## Decoding -/

/-- A text is decoded as the node is of the value as which it is read. -/
theorem Codec.ofText_of_render {α : Type} {c : Codec α} {a : α} {text : String}
    (h : Transcribed j i) (htext : Text.bytes text = render j)
    (hdecode : c.decode .text (Node.ofJson i) = .ok a) : c.ofText text = .ok a := by
  rw [Codec.ofText, htext, h.parse_render]
  exact bind_eq_ok hdecode (bind_eq_ok rfl rfl)

end SignalHub.Json
