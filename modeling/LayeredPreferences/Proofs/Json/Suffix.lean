import LayeredPreferences.Json.Record
import LayeredPreferences.Proofs.Json.Reader

set_option autoImplicit false

/-!
# What readers leave

A reader leaves the end of the source that it was given, so no reader goes back. A
reader that opens a bracket leaves less than it was given.
-/
namespace LayeredPreferences.Json

section Steps

variable {α β : Type}

def LeavesSuffix (reader : Reader α) : Prop :=
  ∀ ⦃source : Source⦄ ⦃a : α⦄ ⦃rest : Source⦄, reader source = .ok (a, rest) → rest <:+ source

theorem bind_inv {x : Reader α} {f : α → Reader β} {source rest : Source} {b : β}
    (h : (x >>= f) source = .ok (b, rest)) :
    ∃ a middle, x source = .ok (a, middle) ∧ f a middle = .ok (b, rest) := by
  rw [bind_apply] at h
  rcases first : x source with _ | ⟨a, middle⟩
  · rw [first] at h
    cases h
  · rw [first] at h
    exact ⟨a, middle, rfl, h⟩

theorem suffix_pure (a : α) : LeavesSuffix (pure a) := by
  intro source b rest h
  cases h
  exact List.suffix_rfl

theorem suffix_refuse (cause : Cause) : LeavesSuffix (refuse cause : Reader α) := by
  intro source a rest h
  cases h

theorem LeavesSuffix.bind {x : Reader α} {f : α → Reader β} (first : LeavesSuffix x)
    (next : ∀ a, LeavesSuffix (f a)) : LeavesSuffix (x >>= f) := by
  intro source b rest h
  obtain ⟨a, middle, started, ended⟩ := bind_inv h
  exact (next a ended).trans (first started)

theorem within_inv {step : Step} {x : Reader α} {source rest : Source} {a : α}
    (h : within step x source = .ok (a, rest)) : x source = .ok (a, rest) := by
  unfold within at h
  cases inner : x source with
  | error fault => rw [inner] at h; cases h
  | ok r => rw [inner] at h; exact h

theorem LeavesSuffix.within {x : Reader α} (h : LeavesSuffix x) (step : Step) :
    LeavesSuffix (within step x) :=
  fun _ _ _ read => h (within_inv read)

theorem suffix_peek : LeavesSuffix peek := by
  intro source g rest h
  cases h
  exact List.dropWhile_suffix _

theorem suffix_advance : LeavesSuffix advance := by
  intro source u rest h
  cases h
  exact List.tail_suffix source

theorem suffix_keyword (word : List Char) : LeavesSuffix (keyword word) := by
  induction word with
  | nil => exact suffix_pure ()
  | cons c word ih =>
    intro source u rest h
    unfold keyword at h
    split at h
    · cases h
    · split at h
      · exact (ih h).trans (List.suffix_cons _ _)
      · cases h

end Steps

/-! ## Quotations -/

theorem suffix_hexFour : LeavesSuffix hexFour := by
  intro source n rest h
  unfold hexFour at h
  split at h
  · cases h
    exact List.drop_suffix 4 source
  · split at h <;> cases h

theorem suffix_lowSurrogate (high : Nat) : LeavesSuffix (lowSurrogate high) := by
  intro source c rest h
  unfold lowSurrogate at h
  split at h
  · cases h
  · cases h
  · rename_i digits
    change (hexFour digits >>= _) = _ at h
    rcases read : hexFour digits with fault | ⟨low, middle⟩ <;> rw [read] at h
    · cases h
    · change (if _ then _ else _) = _ at h
      split at h
      · have same : middle = rest := (Prod.mk.inj (Except.ok.inj h)).2
        have left := (suffix_hexFour read).trans (List.suffix_cons (.char 'u') digits)
        rw [← same]
        exact left.trans (List.suffix_cons _ _)
      · cases h
  · cases h

theorem suffix_codePoint : LeavesSuffix codePoint := by
  refine suffix_hexFour.bind fun n => ?_
  split
  · exact suffix_refuse _
  · split
    · exact suffix_lowSurrogate n
    · exact suffix_pure _

theorem suffix_escape : LeavesSuffix escape := by
  intro source c rest h
  unfold escape at h
  split at h
  case h_10 => exact (suffix_codePoint h).trans (List.suffix_cons _ _)
  all_goals
    cases h
  all_goals exact List.suffix_cons _ _

theorem suffix_looseEscape : LeavesSuffix looseEscape := by
  intro source c rest h
  unfold looseEscape at h
  split at h
  · rename_i digits
    cases read : hexFour digits with
    | error fault => rw [read] at h; cases h
    | ok r =>
      rw [read] at h
      cases h
      exact (suffix_hexFour read).trans (List.suffix_cons _ _)
  · exact suffix_escape h

theorem suffix_letters {escape : Reader Char} (h : LeavesSuffix escape) :
    LeavesSuffix (letters escape) := by
  intro source gs rest read
  fun_induction letters escape source generalizing gs rest with
  | case1 => cases read
  | case2 more =>
    cases read
    exact List.suffix_cons _ _
  | case3 inside fault failed => cases read
  | case4 inside c more escaped shorter ih =>
    rcases others : letters escape more with fault | ⟨hs, last⟩ <;> rw [others] at read
    · cases read
    · cases read
      exact ((ih others).trans (h escaped)).trans (List.suffix_cons _ _)
  | case5 => cases read
  | case6 => cases read
  | case7 g more _ _ _ ih =>
    rcases others : letters escape more with fault | ⟨hs, last⟩ <;> rw [others] at read
    · cases read
    · cases read
      exact (ih others).trans (List.suffix_cons _ _)

theorem suffix_quotation : LeavesSuffix quotation := by
  refine (suffix_letters suffix_escape).bind fun gs => ?_
  split
  · exact suffix_pure _
  · exact suffix_refuse _

/-! ## Numbers -/

theorem significand_suffix (s taken : Nat) (source : Source) :
    (significand s taken source).2.2 <:+ source := by
  fun_induction significand s taken source with
  | case2 s taken g rest d digit fits ih => exact ih.trans (List.suffix_cons g rest)
  | _ => exact List.suffix_rfl

theorem countDigits_suffix (n : Nat) (source : Source) : (countDigits n source).2 <:+ source := by
  fun_induction countDigits n source with
  | case2 n g rest digit ih => exact ih.trans (List.suffix_cons g rest)
  | _ => exact List.suffix_rfl

theorem natural_suffix (n : Nat) (source : Source) : (natural n source).2 <:+ source := by
  fun_induction natural n source with
  | case2 n g rest d digit ih => exact ih.trans (List.suffix_cons g rest)
  | _ => exact List.suffix_rfl

theorem suffix_real (negative : Bool) (s : Nat) (exponent : Int) :
    LeavesSuffix (real negative s exponent) := by
  unfold real
  split
  · exact suffix_pure _
  · exact suffix_refuse _

theorem suffix_power (negative : Bool) (s : Nat) (exponent : Int) :
    LeavesSuffix (power negative s exponent) := by
  intro source x rest h
  unfold power at h
  split at h
  rename_i down digits sign
  have front : digits <:+ source := by
    split at sign <;> cases sign
    · exact List.suffix_cons _ _
    · exact List.suffix_cons _ _
    · exact List.suffix_rfl
  split at h
  · cases h
  · split at h
    · rename_i g more _
      have taken := natural_suffix 0 (g :: more)
      exact ((suffix_real _ _ _ h).trans taken).trans front
    · cases h

theorem suffix_fraction (negative : Bool) (s exponent : Nat) :
    LeavesSuffix (fraction negative s exponent) := by
  intro source x rest h
  unfold fraction at h
  have first := significand_suffix s 0 source
  have both := (countDigits_suffix 0 (significand s 0 source).2.2).trans first
  dsimp only at h
  split at h
  · split at h <;> cases h
  · split at h
    · rename_i digits more
      rw [more] at both
      exact ((suffix_power _ _ _ h).trans (List.suffix_cons _ _)).trans both
    · rename_i digits more
      rw [more] at both
      exact ((suffix_power _ _ _ h).trans (List.suffix_cons _ _)).trans both
    · exact (suffix_real _ _ _ h).trans both

theorem suffix_afterInteger (negative : Bool) (s skipped : Nat) :
    LeavesSuffix (afterInteger negative s skipped) := by
  intro source x rest h
  unfold afterInteger at h
  split at h
  · exact (suffix_fraction _ _ _ h).trans (List.suffix_cons _ _)
  · exact (suffix_power _ _ _ h).trans (List.suffix_cons _ _)
  · exact (suffix_power _ _ _ h).trans (List.suffix_cons _ _)
  · split at h
    · cases h
      exact List.suffix_rfl
    · exact suffix_real _ _ _ h

theorem suffix_magnitude (negative : Bool) : LeavesSuffix (magnitude negative) := by
  intro source x rest h
  unfold magnitude at h
  split at h
  · cases h
  · split at h
    · cases h
    · exact (suffix_afterInteger _ _ _ h).trans (List.suffix_cons _ _)
  · rename_i g more _
    split at h
    · have first := significand_suffix 0 0 (g :: more)
      have both := (countDigits_suffix 0 (significand 0 0 (g :: more)).2.2).trans first
      exact (suffix_afterInteger _ _ _ h).trans both
    · cases h

theorem suffix_number : LeavesSuffix number := by
  intro source x rest h
  unfold number at h
  split at h
  · exact (suffix_magnitude _ h).trans (List.suffix_cons _ _)
  · exact suffix_magnitude _ h

/-! ## Values at the front -/

theorem suffix_sight : LeavesSuffix sight := by
  refine suffix_peek.bind fun g => ?_
  split
  · exact suffix_refuse _
  · exact (suffix_keyword _).bind fun _ => suffix_pure _
  · exact (suffix_keyword _).bind fun _ => suffix_pure _
  · exact (suffix_keyword _).bind fun _ => suffix_pure _
  · exact suffix_advance.bind fun _ => suffix_quotation.bind fun s => suffix_pure _
  · exact suffix_advance.bind fun _ => suffix_pure _
  · exact suffix_advance.bind fun _ => suffix_pure _
  · split
    · exact suffix_number.bind fun n => suffix_pure _
    · exact suffix_refuse _

/-! ## Lists and objects -/

theorem suffix_nextElement (care : Care) (first : Bool) : LeavesSuffix (nextElement care first) := by
  refine suffix_peek.bind fun g => ?_
  split
  · exact suffix_refuse _
  · exact suffix_pure _
  · split
    · exact suffix_pure _
    · refine suffix_advance.bind fun _ => ?_
      split
      · exact suffix_pure _
      · refine suffix_peek.bind fun g => ?_
        split
        · exact suffix_refuse _
        · exact suffix_refuse _
        · exact suffix_pure _
  · split
    · exact suffix_pure _
    · exact suffix_refuse _

theorem suffix_elements {α : Type} {item : Reader α} (h : LeavesSuffix item) (care : Care)
    (index : Nat) : LeavesSuffix (elements care item index) := by
  intro source xs rest read
  fun_induction elements care item index source generalizing xs rest with
  | case1 => cases read
  | case2 index source here closed =>
    cases read
    exact suffix_nextElement care _ closed
  | case3 => cases read
  | case4 index source here next x more taken shorter ih =>
    rcases others : elements care item (index + 1) more with fault | ⟨ys, last⟩ <;>
      rw [others] at read
    · cases read
    · cases read
      exact ((ih others).trans (h.within _ taken)).trans (suffix_nextElement care _ next)
  | case5 index source here next x more taken longer =>
    cases read
    exact (h.within _ taken).trans (suffix_nextElement care _ next)

theorem suffix_closeList : LeavesSuffix closeList := by
  refine suffix_peek.bind fun g => ?_
  split
  · exact suffix_refuse _
  · exact suffix_advance
  · refine suffix_advance.bind fun _ => suffix_peek.bind fun g => ?_
    split <;> exact suffix_refuse _
  · exact suffix_refuse _

theorem suffix_nextMember (care : Care) (first : Bool) : LeavesSuffix (nextMember care first) := by
  refine suffix_peek.bind fun g => ?_
  split
  · exact suffix_refuse _
  · exact suffix_pure _
  · split
    · exact suffix_refuse _
    · refine suffix_advance.bind fun _ => suffix_peek.bind fun g => ?_
      split
      · exact suffix_pure _
      · split <;> exact suffix_refuse _
      · exact suffix_refuse _
      · split <;> exact suffix_refuse _
  · split
    · exact suffix_pure _
    · exact suffix_refuse _
  · split <;> exact suffix_refuse _

theorem suffix_colon : LeavesSuffix colon := by
  refine suffix_peek.bind fun g => ?_
  split
  · exact suffix_refuse _
  · exact suffix_advance
  · exact suffix_refuse _

theorem suffix_nextName {name : Reader String} (h : LeavesSuffix name) (care : Care)
    (first : Bool) : LeavesSuffix (nextName care name first) := by
  refine LeavesSuffix.within ((suffix_nextMember care first).bind fun follows => ?_) _
  split
  · exact suffix_advance.bind fun _ => h.bind fun s => suffix_pure _
  · exact suffix_pure _

theorem suffix_members {σ : Type} {name : Reader String} (named : LeavesSuffix name)
    {member : String → σ → Except Cause (Reader σ)}
    (h : ∀ key state reader, member key state = .ok reader → LeavesSuffix reader) (care : Care)
    (first : Bool) (state : σ) : LeavesSuffix (members care name member first state) := by
  intro source result rest read
  fun_induction members care name member first state source generalizing result rest with
  | case1 => cases read
  | case2 first state source here closed =>
    cases read
    exact suffix_nextName named care first closed
  | case3 => cases read
  | case4 => cases read
  | case5 first state source key here next value known state' more taken shorter ih =>
    have one := suffix_colon.bind fun _ => (h key state value known).within (.member key)
    exact ((ih read).trans (one taken)).trans (suffix_nextName named care first next)
  | case6 first state source key here next value known state' more taken longer =>
    cases read
    have one := suffix_colon.bind fun _ => (h key state value known).within (.member key)
    exact (one taken).trans (suffix_nextName named care first next)

theorem suffix_closeObject : LeavesSuffix closeObject := by
  refine suffix_peek.bind fun g => ?_
  split
  · exact suffix_refuse _
  · exact suffix_advance
  · exact suffix_refuse _
  · exact suffix_refuse _

/-! ## Passages -/

theorem suffix_kept (room : Nat) : LeavesSuffix (kept room) := by
  induction room with
  | zero =>
    refine suffix_sight.bind fun found => ?_
    split
    · exact suffix_refuse _
    · exact suffix_refuse _
    · exact suffix_pure _
  | succ room ih =>
    refine suffix_sight.bind fun found => ?_
    split
    · refine (suffix_elements ih .kept 0).bind fun _ => ?_
      exact suffix_closeList.bind fun _ => suffix_pure _
    · refine (suffix_members suffix_quotation ?_ .kept true ()).bind fun _ => ?_
      · rintro key state reader ⟨⟩
        exact ih.bind fun _ => suffix_pure _
      · exact suffix_closeObject.bind fun _ => suffix_pure _
    · exact suffix_pure _

theorem suffix_skipDigits : LeavesSuffix skipDigits := by
  intro source u rest h
  cases h
  exact countDigits_suffix 0 source

theorem suffix_skipSomeDigits : LeavesSuffix skipSomeDigits := by
  intro source u rest h
  unfold skipSomeDigits at h
  split at h
  · exact suffix_skipDigits h
  · cases h

theorem suffix_afterFraction : LeavesSuffix skipNumber.afterFraction := by
  intro source u rest h
  unfold skipNumber.afterFraction at h
  split at h
  case h_1 | h_2 =>
    refine List.IsSuffix.trans ?_ (List.suffix_cons _ _)
    split at h
    · exact (suffix_skipSomeDigits h).trans (List.suffix_cons _ _)
    · exact (suffix_skipSomeDigits h).trans (List.suffix_cons _ _)
    · exact suffix_skipSomeDigits h
  case h_3 =>
    cases h
    exact List.suffix_rfl

theorem suffix_skipNumber : LeavesSuffix skipNumber := by
  have both {next : Reader Unit} (after : LeavesSuffix next) {source rest : Source} {u : Unit}
      (h : (skipSomeDigits source >>= fun r => next r.2) = .ok (u, rest)) : rest <:+ source := by
    rcases read : skipSomeDigits source with fault | ⟨_, middle⟩ <;> rw [read] at h
    · cases h
    · exact (after h).trans (suffix_skipSomeDigits read)
  intro source u rest h
  unfold skipNumber at h
  extract_lets unsigned afterDigits at h
  have digits_read : LeavesSuffix afterDigits := by
    intro source u rest h
    unfold afterDigits at h
    split at h
    · exact (both suffix_afterFraction h).trans (List.suffix_cons _ _)
    · exact suffix_afterFraction h
  have front : unsigned <:+ source := by
    unfold unsigned
    split
    · exact List.suffix_cons _ _
    · exact List.suffix_rfl
  refine List.IsSuffix.trans ?_ front
  clear_value unsigned
  split at h
  · split at h
    · cases h
    · exact (digits_read h).trans (List.suffix_cons _ _)
  · exact both digits_read h

theorem suffix_looseQuotation : LeavesSuffix looseQuotation :=
  (suffix_letters suffix_looseEscape).bind fun _ => suffix_pure _

theorem suffix_skippedWithin (depth : Nat) : LeavesSuffix (skippedWithin depth) := by
  induction depth with
  | zero => exact suffix_refuse _
  | succ depth ih =>
    refine suffix_peek.bind fun g => ?_
    split
    · exact suffix_refuse _
    · exact suffix_keyword _
    · exact suffix_keyword _
    · exact suffix_keyword _
    · exact suffix_advance.bind fun _ => suffix_looseQuotation.bind fun _ => suffix_pure _
    · refine suffix_advance.bind fun _ => (suffix_elements ih .skipped 0).bind fun _ => ?_
      exact suffix_closeList
    · refine suffix_advance.bind fun _ => ?_
      refine (suffix_members suffix_looseQuotation ?_ .skipped true ()).bind fun _ => ?_
      · rintro key state reader ⟨⟩
        exact ih
      · exact suffix_closeObject
    · split
      · exact suffix_skipNumber
      · exact suffix_refuse _

theorem suffix_skipped : LeavesSuffix skipped := by
  intro source u rest h
  unfold skipped unplaced at h
  cases inner : skippedWithin source.length source with
  | error fault => rw [inner] at h; cases h
  | ok r =>
    rw [inner] at h
    cases h
    exact suffix_skippedWithin _ inner

/-! ## Values of a given shape -/

theorem suffix_opened {α : Type} {inside : Nat → Reader α} (h : ∀ room, LeavesSuffix (inside room))
    (room : Nat) : LeavesSuffix (opened room inside) := by
  unfold opened
  split
  · exact suffix_refuse _
  · exact h _

theorem suffix_string (room : Nat) : LeavesSuffix (string room) := by
  refine suffix_sight.bind fun found => ?_
  split
  · exact suffix_pure _
  · exact suffix_refuse _

theorem suffix_boolean (room : Nat) : LeavesSuffix (boolean room) := by
  refine suffix_sight.bind fun found => ?_
  split
  · exact suffix_pure _
  · exact suffix_refuse _

theorem suffix_integer (room : Nat) : LeavesSuffix (integer room) := by
  refine suffix_sight.bind fun found => ?_
  split
  · split
    · exact suffix_pure _
    · exact suffix_refuse _
  · exact suffix_refuse _

theorem suffix_null : LeavesSuffix null := by
  refine suffix_sight.bind fun found => ?_
  split
  · exact suffix_pure _
  · exact suffix_refuse _

theorem suffix_optional {α : Type} {reader : Shaped α} (h : ∀ room, LeavesSuffix (reader room))
    (room : Nat) : LeavesSuffix (optional reader room) := by
  refine suffix_peek.bind fun g => ?_
  split
  · exact (suffix_keyword _).bind fun _ => suffix_pure _
  · exact (h room).bind fun _ => suffix_pure _

theorem suffix_list {α : Type} {item : Shaped α} (h : ∀ room, LeavesSuffix (item room))
    (room : Nat) : LeavesSuffix (list item room) := by
  refine suffix_sight.bind fun found => ?_
  split
  · refine suffix_opened (fun room => ?_) room
    refine (suffix_elements (h room) .kept 0).bind fun _ => ?_
    exact suffix_closeList.bind fun _ => suffix_pure _
  · exact suffix_refuse _

theorem suffix_choose {α : Type} (known : List (String × α)) (s : String) :
    LeavesSuffix (variant.choose known s) := by
  unfold variant.choose
  split
  · exact suffix_pure _
  · exact suffix_refuse _

theorem suffix_variant {α : Type} (known : List (String × α)) (room : Nat) :
    LeavesSuffix (variant known room) := by
  refine suffix_peek.bind fun g => ?_
  split
  · exact suffix_refuse _
  · exact (suffix_string room).bind fun s => suffix_choose known s
  · refine suffix_opened (fun _ => ?_) room
    refine suffix_advance.bind fun _ => (suffix_nextMember .kept true).bind fun follows => ?_
    split
    · refine (suffix_string room).bind fun s => (suffix_choose known s).bind fun x => ?_
      refine suffix_colon.bind fun _ => suffix_null.bind fun _ => suffix_peek.bind fun g => ?_
      split
      · exact suffix_advance.bind fun _ => suffix_pure _
      · exact suffix_refuse _
      · exact suffix_refuse _
    · exact suffix_refuse _
  · exact suffix_refuse _

/-! ## Records -/

section Records

variable {ρ : Type}

theorem suffix_recordElements (name : String) (total room : Nat) {fields : List (Field ρ)}
    (h : ∀ field ∈ fields, LeavesSuffix (field.read room)) (index : Nat) (record : ρ) :
    LeavesSuffix (recordElements name total room fields index record) := by
  induction fields generalizing index record with
  | nil => exact suffix_pure _
  | cons field fields ih =>
    have others := ih fun field' member => h field' (by simp [member])
    refine (suffix_nextElement .kept _).bind fun follows => ?_
    split
    · refine ((h field (by simp)).within _).bind fun put => ?_
      exact others _ _
    · split
      · exact suffix_refuse _
      · exact others _ _

theorem suffix_recordMember {fields : List (Field ρ)} {room : Nat}
    (h : ∀ field ∈ fields, LeavesSuffix (field.read room)) {key : String}
    {state : List String × ρ} {reader : Reader (List String × ρ)}
    (known : recordMember fields room key state = .ok reader) : LeavesSuffix reader := by
  unfold recordMember at known
  split at known
  · cases known
    exact suffix_skipped.bind fun _ => suffix_pure _
  · rename_i field found
    split at known <;> cases known
    exact (h field (List.mem_of_find?_eq_some found)).bind fun _ => suffix_pure _

theorem suffix_fieldRequired {α : Type} {shape : Shaped α} (h : ∀ room, LeavesSuffix (shape room))
    (name : String) (put : ρ → α → ρ) (room : Nat) :
    LeavesSuffix ((Field.required name shape put).read room) :=
  (h room).bind fun _ => suffix_pure _

theorem suffix_fieldOptional {α : Type} {shape : Shaped α} (h : ∀ room, LeavesSuffix (shape room))
    (name : String) (put : ρ → α → ρ) (room : Nat) :
    LeavesSuffix ((Field.optional name shape put).read room) :=
  suffix_fieldRequired h name put room

end Records

/-! ## Brackets -/

theorem advance_shorter {source middle rest : Source} {g : Glyph} {u : Unit}
    (looked : peek source = .ok (some g, middle)) (h : advance middle = .ok (u, rest)) :
    rest.length < source.length := by
  have left := (suffix_peek looked).length_le
  obtain ⟨head, same⟩ := Prod.mk.inj (Except.ok.inj looked)
  have tail : middle.tail = rest := (Prod.mk.inj (Except.ok.inj h)).2
  rw [same] at head
  cases middle with
  | nil => cases head
  | cons g more =>
    rw [← tail]
    exact left

/-- Of a list and of an object at least the opening bracket is read. -/
theorem sight_opens {source rest : Source} {found : Sight} (h : sight source = .ok (found, rest))
    (opening : found = .list ∨ found = .object) : rest.length < source.length := by
  obtain ⟨g, middle, looked, seen⟩ := bind_inv h
  split at seen
  case h_6 | h_7 =>
    obtain ⟨_, _, passed, last⟩ := bind_inv seen
    cases last
    exact advance_shorter looked passed
  case h_1 => cases seen
  case h_2 | h_3 | h_4 =>
    obtain ⟨_, _, _, last⟩ := bind_inv seen
    cases last
    simp at opening
  case h_5 =>
    obtain ⟨_, _, _, text⟩ := bind_inv seen
    obtain ⟨_, _, _, last⟩ := bind_inv text
    cases last
    simp at opening
  case h_8 =>
    split at seen
    · obtain ⟨_, _, _, last⟩ := bind_inv seen
      cases last
      simp at opening
    · cases seen

/-- A record takes its opening bracket at least. -/
theorem shorter_record {ρ : Type} (name : String) {fields : List (Field ρ)}
    (h : ∀ field ∈ fields, ∀ room, LeavesSuffix (field.read room)) (empty : ρ) (room : Nat)
    {source rest : Source} {x : ρ} (read : record name fields empty room source = .ok (x, rest)) :
    rest <:+ source ∧ rest.length < source.length := by
  unfold record at read
  obtain ⟨found, inside, seen, read⟩ := bind_inv read
  have taken := suffix_sight seen
  split at read
  · have left : rest <:+ inside := by
      refine suffix_opened (fun room => ?_) room read
      refine LeavesSuffix.bind (suffix_recordElements name _ room ?_ 0 empty) fun _ => ?_
      · exact fun field member => h field member room
      · exact suffix_closeList.bind fun _ => suffix_pure _
    exact ⟨left.trans taken, Nat.lt_of_le_of_lt left.length_le (sight_opens seen (.inl rfl))⟩
  · have left : rest <:+ inside := by
      refine suffix_opened (fun room => ?_) room read
      refine LeavesSuffix.bind (suffix_members suffix_quotation ?_ .kept true _) fun result => ?_
      · intro key state reader known
        exact suffix_recordMember (fun field member => h field member room) known
      · dsimp only
        split
        · exact suffix_refuse _
        · exact suffix_closeObject.bind fun _ => suffix_pure _
    exact ⟨left.trans taken, Nat.lt_of_le_of_lt left.length_le (sight_opens seen (.inr rfl))⟩
  · cases read

theorem suffix_record {ρ : Type} (name : String) {fields : List (Field ρ)}
    (h : ∀ field ∈ fields, ∀ room, LeavesSuffix (field.read room)) (empty : ρ) (room : Nat) :
    LeavesSuffix (record name fields empty room) :=
  fun _ _ _ read => (shorter_record name h empty room read).1

/-! ## The first element that is refused -/

section Elements

variable {α : Type}

/-- The elements before the place where another one starts, each of them read. -/
inductive ReadsUpTo (item : Reader α) : Nat → Source → List α → Source → Prop where
  | here {index : Nat} {source start : Source}
    (next : nextElement .kept (index = 0) source = .ok (true, start)) :
    ReadsUpTo item index source [] start
  | after {index : Nat} {source start more last : Source} {x : α} {xs : List α}
    (next : nextElement .kept (index = 0) source = .ok (true, start))
    (read : item start = .ok (x, more)) (others : ReadsUpTo item (index + 1) more xs last) :
    ReadsUpTo item index source (x :: xs) last

variable {item : Reader α} {source start : Source} {xs : List α} {fault : Fault}

/-- Whatever comes behind it, an element that is refused is what the list is refused for. -/
theorem elements_refused (shorter : ∀ {source rest : Source} {x : α},
    item source = .ok (x, rest) → rest.length < source.length) {index : Nat}
    (before : ReadsUpTo item index source xs start) (refused : item start = .error fault) :
    ∃ path, elements .kept item index source = .error ⟨path, fault.cause⟩ := by
  induction before with
  | here next =>
    rw [elements, next]
    dsimp only
    rw [within_error refused]
    exact ⟨_, rfl⟩
  | @after index source start more last x xs next read others ih =>
    obtain ⟨path, failed⟩ := ih refused
    have size : more.length < source.length :=
      Nat.lt_of_lt_of_le (shorter read) (suffix_nextElement _ _ next).length_le
    rw [elements, next]
    dsimp only
    rw [within_ok read]
    dsimp only
    rw [if_pos size, failed]
    exact ⟨path, rfl⟩

theorem parse_list_refused (item : Shaped α) (shorter : ∀ {room : Nat} {source rest : Source}
    {x : α}, item room source = .ok (x, rest) → rest.length < source.length) {inside : Source}
    (opening : sight source = .ok (.list, inside))
    (before : ReadsUpTo (item (roomAtStart - 1)) 0 inside xs start)
    (refused : item (roomAtStart - 1) start = .error fault) :
    ∃ path, parse (list item) source = .error ⟨path, fault.cause⟩ := by
  obtain ⟨path, failed⟩ := elements_refused shorter before refused
  refine ⟨path, whole_error ?_⟩
  unfold list
  rw [bind_ok opening]
  exact bind_error failed

end Elements

end LayeredPreferences.Json
