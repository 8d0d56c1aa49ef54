import LayeredPreferences.Proofs.Json.Passing

set_option autoImplicit false

/-!
# Values that are kept

Of every value a reader that keeps it takes the whole text, or refuses it. That holds of single
values, and of lists and records if it holds of what they are made of.
-/
namespace LayeredPreferences.Json

/-! ## Strings -/

theorem Hex.unique {n m : Nat} {digits : List Char} (h : Hex n digits) (h' : Hex m digits) :
    n = m := by
  have read := hexFour_spelled h []
  rw [hexFour_spelled h' []] at read
  exact (Prod.mk.inj (Except.ok.inj read)).1.symm

theorem Hex.length {n : Nat} {digits : List Char} (h : Hex n digits) : digits.length = 4 := by
  cases h
  rfl

theorem shortEscapes_unique {letter c d : Char} (h : (letter, c) ∈ shortEscapes)
    (h' : (letter, d) ∈ shortEscapes) : c = d := by
  have read := escape_short h []
  rw [escape_short h' []] at read
  exact (Prod.mk.inj (Except.ok.inj read)).1.symm

theorem Piece.WellFormed.front {p : Piece} (h : p.WellFormed) :
    ∃ c cs, p.text = c :: cs ∧ c ≠ '"' := by
  cases h with
  | plain quote => exact ⟨_, _, rfl, quote⟩
  | short => exact ⟨_, _, rfl, by decide⟩
  | unit => exact ⟨_, _, rfl, by decide⟩

theorem Piece.WellFormed.unique {p q : Piece} (hp : p.WellFormed) (hq : q.WellFormed)
    {r t : Source} (same : p.text.map .char ++ r = q.text.map .char ++ t) : p = q ∧ r = t := by
  cases hp with
  | plain quote backslash visible =>
    cases hq with
    | plain => simpa [Piece.text] using same
    | _ => simp [Piece.text, backslash] at same
  | short known =>
    cases hq with
    | plain _ backslash => simp [Piece.text, Ne.symm backslash] at same
    | short known' =>
      simp only [Piece.text, List.map_cons, List.map_nil, List.cons_append, List.nil_append,
        List.cons.injEq, Glyph.char.injEq, true_and] at same
      obtain ⟨rfl, rfl⟩ := same
      exact ⟨congrArg _ (shortEscapes_unique known known'), rfl⟩
    | unit => simp [Piece.text, short_ne_u known] at same
  | unit hex =>
    cases hq with
    | plain _ backslash => simp [Piece.text, Ne.symm backslash] at same
    | short known' => simp [Piece.text, Ne.symm (short_ne_u known')] at same
    | unit hex' =>
      simp only [Piece.text, List.map_cons, List.cons_append, List.cons.injEq, true_and] at same
      obtain ⟨digits, rest⟩ := List.append_inj same (by simp [hex.length, hex'.length])
      obtain rfl := List.map_injective_iff.2 (fun _ _ => Glyph.char.inj) digits
      exact ⟨by rw [hex.unique hex'], rest⟩

/-- A text between quotation marks is spelled by one list of pieces only. -/
theorem spelling_unique {ps qs : List Piece} (hps : WellSpelled ps) (hqs : WellSpelled qs)
    {r t : Source} (same : (spelling ps).map .char ++ .char '"' :: r
      = (spelling qs).map .char ++ .char '"' :: t) : ps = qs ∧ r = t := by
  induction ps generalizing qs with
  | nil =>
    cases qs with
    | nil => simpa [spelling] using same
    | cons q qs =>
      -- No piece starts with the mark that closes the text.
      obtain ⟨c, cs, front, quote⟩ := (wellSpelled_cons.1 hqs).1.front
      simp [spelling, front, Ne.symm quote] at same
  | cons p ps ih =>
    obtain ⟨wellFormed, others⟩ := wellSpelled_cons.1 hps
    cases qs with
    | nil =>
      obtain ⟨c, cs, front, quote⟩ := wellFormed.front
      simp [spelling, front, quote] at same
    | cons q qs =>
      obtain ⟨wellFormed', others'⟩ := wellSpelled_cons.1 hqs
      rw [spelling_cons, spelling_cons, List.map_append, List.map_append, List.append_assoc,
        List.append_assoc] at same
      obtain ⟨rfl, behind⟩ := wellFormed.unique wellFormed' same
      obtain ⟨rfl, rest⟩ := ih others others' behind
      exact ⟨rfl, rest⟩

theorem calls_denoted {ps : List Piece} (wellSpelled : WellSpelled ps) {cs : List Char}
    (denotes : Denotes ps cs) : Calls quotation ps (some (String.ofList cs)) := by
  intro rest
  rw [quotation_denoted wellSpelled denotes]
  exact .value _

/-- A string that denotes nothing, as surrogates are left alone in it, is refused. -/
theorem calls_quotation {ps : List Piece} (wellSpelled : WellSpelled ps) :
    ∃ key, Calls quotation ps key := by
  by_cases denoted : ∃ cs, Denotes ps cs
  · obtain ⟨cs, denotes⟩ := denoted
    exact ⟨_, calls_denoted wellSpelled denotes⟩
  · refine ⟨none, fun rest => ?_⟩
    generalize read : quotation ((spelling ps).map .char ++ .char '"' :: rest) = outcome
    rcases outcome with fault | ⟨s, more⟩
    · exact .fault fault
    · obtain ⟨qs, wellSpelled', denotes, same⟩ := quotation_inv read
      obtain ⟨rfl, -⟩ := spelling_unique wellSpelled wellSpelled' same
      exact absurd ⟨_, denotes⟩ denoted

/-! ## Single values -/

section Sights

variable {α : Type} {text : List Char} {rest : Source}

theorem number_decided {l : Literal} (wellFormed : l.WellFormed) (capital plus : Bool) :
    ∃ n, ∀ rest, EndsNumber rest →
      Yields rest (number ((l.spelled capital plus).map .char ++ rest)) n := by
  rcases Literal.number_spelled wellFormed capital plus with
    ⟨-, -, -, read⟩ | ⟨s, e, -, -, -, read⟩
  · refine ⟨some (integral l.negative l.significand), fun rest ends => ?_⟩
    rw [read rest ends]
    exact .value _
  · cases scaled : Binary64.scaledRank? s e with
    | none =>
      refine ⟨none, fun rest ends => ?_⟩
      rw [read rest ends, real, scaled]
      exact .fault _
    | some rank =>
      refine ⟨some (.real (.ofRank l.negative rank)), fun rest ends => ?_⟩
      rw [read rest ends, real, scaled]
      exact .value _

theorem settles_sight_number {l : Literal} (wellFormed : l.WellFormed) (capital plus : Bool) {n}
    (read : ∀ rest, EndsNumber rest →
      Yields rest (number ((l.spelled capital plus).map .char ++ rest)) n) :
    Settles sight (l.spelled capital plus) (n.map Sight.number) := by
  intro pad rest blanks ends
  have read := read rest ends
  obtain ⟨c, cs, front, first⟩ := Literal.front_spelled wellFormed capital plus
  rw [front, List.map_cons, List.cons_append] at read ⊢
  rw [sight_numeral blanks first, Option.map_eq_bind]
  exact read.bind fun n _ => .value _

theorem settles_sight_quoted {ps : List Piece} {key : Option String}
    (called : Calls quotation ps key) : Settles sight (quoted ps) (key.map Sight.string) := by
  refine skipsBlanks_sight.settles fun rest _ => ?_
  have source : (quoted ps).map Glyph.char ++ rest
      = .char '"' :: ((spelling ps).map .char ++ .char '"' :: rest) := by
    simp [quoted]
  unfold sight
  rw [source, bind_ok (peek_here rfl _)]
  change Yields rest ((do advance; return Sight.string (← quotation) : Reader Sight) _) _
  rw [bind_ok (advance_cons _ _), Option.map_eq_bind]
  exact (called rest).bind fun s _ => .value _

/-- What is seen of a token is neither a list nor an object. -/
theorem IsToken.settles_sight (h : IsToken text) :
    ∃ v, Settles sight text v ∧ v ≠ some .list ∧ v ≠ some .object := by
  cases h with
  | null =>
    refine ⟨some .null, fun pad rest blanks _ => ?_, nofun, nofun⟩
    rw [sight_null blanks]
    exact .value _
  | boolean b =>
    refine ⟨some (.boolean b), fun pad rest blanks _ => ?_, nofun, nofun⟩
    rw [sight_writeBool blanks]
    exact .value _
  | number wellFormed capital plus =>
    obtain ⟨n, read⟩ := number_decided wellFormed capital plus
    refine ⟨_, settles_sight_number wellFormed capital plus read, ?_⟩
    cases n <;> exact ⟨nofun, nofun⟩
  | string wellSpelled =>
    obtain ⟨key, called⟩ := calls_quotation wellSpelled
    refine ⟨_, settles_sight_quoted called, ?_⟩
    cases key <;> exact ⟨nofun, nofun⟩

theorem sight_listText (pad : Pad) (items : List Item) (rest : Source) :
    sight ((listText pad items).map .char ++ rest)
      = .ok (.list, (remaining true pad (items.map Item.text)).map .char ++ .char ']' :: rest) := by
  have source : (listText pad items).map Glyph.char ++ rest = .char '[' ::
      ((remaining true pad (items.map Item.text)).map .char ++ .char ']' :: rest) := by
    simp [listText, remaining]
  rw [source]
  unfold sight
  rw [bind_ok (peek_here rfl _)]
  rfl

theorem sight_objectText (pad : Pad) (members : List Member) (rest : Source) :
    sight ((objectText pad members).map .char ++ rest) = .ok (.object,
      (remaining true pad (members.map Member.text)).map .char ++ .char '}' :: rest) := by
  have source : (objectText pad members).map Glyph.char ++ rest = .char '{' ::
      ((remaining true pad (members.map Member.text)).map .char ++ .char '}' :: rest) := by
    simp [objectText, remaining]
  rw [source]
  exact sight_object _

/-- Of every value the reader takes the whole text, or refuses it. -/
def Decides (reader : Reader α) : Prop :=
  ∀ ⦃text : List Char⦄, IsValue text → ∃ v, Settles reader text v

/-- What is seen of a value decides what is made of it; lists and objects are refused. -/
theorem decides_sight {f : Sight → Reader α}
    (answers : ∀ found, ∃ v, ∀ source, Yields source (f found source) v)
    (list : ∀ source, Yields source (f .list source) none)
    (object : ∀ source, Yields source (f .object source) none) : Decides (sight >>= f) := by
  intro text value
  cases value with
  | token token =>
    obtain ⟨v, seen, -⟩ := token.settles_sight
    cases v with
    | none => exact ⟨none, fun pad rest blanks ends => (seen pad rest blanks ends).stop f rest⟩
    | some found =>
      obtain ⟨w, answer⟩ := answers found
      exact ⟨w, fun pad rest blanks ends => (seen pad rest blanks ends).andThen (answer rest)⟩
  | list pad values =>
    refine ⟨none, (skipsBlanks_sight.bind f).settles fun rest _ => ?_⟩
    rw [bind_ok (sight_listText pad _ rest)]
    exact (list _).elsewhere
  | object pad names values =>
    refine ⟨none, (skipsBlanks_sight.bind f).settles fun rest _ => ?_⟩
    rw [bind_ok (sight_objectText pad _ rest)]
    exact (object _).elsewhere

theorem decides_string (room : Nat) : Decides (string room) := by
  refine decides_sight (fun found => ?_) (fun _ => .fault _) fun _ => .fault _
  cases found with
  | string s => exact ⟨some s, fun _ => .value s⟩
  | _ => exact ⟨none, fun _ => .fault _⟩

theorem decides_boolean (room : Nat) : Decides (boolean room) := by
  refine decides_sight (fun found => ?_) (fun _ => .fault _) fun _ => .fault _
  cases found with
  | boolean b => exact ⟨some b, fun _ => .value b⟩
  | _ => exact ⟨none, fun _ => .fault _⟩

theorem decides_integer (room : Nat) : Decides (integer room) := by
  refine decides_sight (fun found => ?_) (fun _ => .fault _) fun _ => .fault _
  cases found with
  | number n =>
    cases n with
    | integer n =>
      by_cases high : n < Nat.pow 2 63
      · refine ⟨some (.ofInt n), fun _ => ?_⟩
        dsimp only
        rw [if_pos high]
        exact .value _
      · refine ⟨none, fun _ => ?_⟩
        dsimp only
        rw [if_neg high]
        exact .fault _
    | real x => exact ⟨none, fun _ => .fault _⟩
  | _ => exact ⟨none, fun _ => .fault _⟩

theorem decides_null : Decides null := by
  refine decides_sight (fun found => ?_) (fun _ => .fault _) fun _ => .fault _
  cases found with
  | null => exact ⟨some (), fun _ => .value ()⟩
  | _ => exact ⟨none, fun _ => .fault _⟩

end Sights

end LayeredPreferences.Json
