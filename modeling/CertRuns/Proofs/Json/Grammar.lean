import CertRuns.Proofs.Json.RoundTrip

/-!
# The grammar of documents

The text of a document is made of the tokens of one value in a row, each of them in one of its
spellings, with blanks between them as one likes. These texts, and no others, are read as the value.

* `digitRun_eq`, `numeral?_eq_some`, `Quoted.scan_eq_some`, `Token.read?_eq_some` : what was read
  from the start of a text is spelled there;
* `tokensOf v` : the tokens of a value; `State.spent s` : the tokens that lead to a state;
* `Laid ts s` : the tokens `ts` in a row, with blanks; `Document s v` : those of the value `v`;
* `parse_eq_some_iff` : what is read from a text is what it is a document of.
-/

namespace CertRuns.Json

open Decimal (Digit)
open Text (Symbol)

/-! ## Spellings of what was read -/

theorem digitRun_eq {s rest : List Symbol} {ds : List Digit} (h : digitRun s = (ds, rest)) :
    s = ofDigits ds ++ rest := by
  fun_induction digitRun s generalizing ds rest with
  | case1 c r d hd es rest' hr ih =>
    cases h
    rw [ofDigits_cons, List.cons_append, ← ih hr, Decimal.char_of_digit? hd]
  | case2 c r =>
    cases h
    rfl
  | case3 s =>
    cases h
    rfl

theorem fraction?_eq_some {s rest : List Symbol} {ds : List Digit}
    (h : fraction? s = some (ds, rest)) : s = ofFraction ds ++ rest := by
  unfold fraction? at h
  split at h
  · split at h
    · cases h
    · rename_i hne hrun
      cases h
      rw [ofFraction, if_neg fun hnil => hne hnil, List.cons_append, ← digitRun_eq hrun]
  · cases h
    rfl

theorem exponentDigits?_eq_some {negative : Bool} {s rest : List Symbol} {e : Option Int}
    (h : exponentDigits? negative s = some (e, rest)) : ∃ ds, ds ≠ [] ∧ s = ofDigits ds ++ rest ∧
      e = some (if negative then -(Decimal.value ds : Int) else Decimal.value ds) := by
  unfold exponentDigits? at h
  split at h
  · cases h
  · rename_i ds rest' hne hrun
    cases h
    exact ⟨ds, fun hnil => hne hnil, digitRun_eq hrun, rfl⟩

theorem exponent?_eq_some {s rest : List Symbol} {e : Option Int}
    (h : exponent? s = some (e, rest)) : ∃ w, ExponentSpelled e w ∧ s = w ++ rest := by
  unfold exponent? at h
  split at h
  · rename_i c r
    split at h
    · rename_i hmark
      split at h
      · obtain ⟨ds, hds, rfl, rfl⟩ := exponentDigits?_eq_some h
        exact ⟨_, .plus hmark (.inr rfl) hds, rfl⟩
      · obtain ⟨ds, hds, rfl, rfl⟩ := exponentDigits?_eq_some h
        exact ⟨_, .minus hmark hds, rfl⟩
      · obtain ⟨ds, hds, rfl, rfl⟩ := exponentDigits?_eq_some h
        exact ⟨_, .plus hmark (.inl rfl) hds, rfl⟩
    · cases h
      exact ⟨[], .none, rfl⟩
  · cases h
    exact ⟨[], .none, rfl⟩

theorem numeralTail?_eq_some {negative : Bool} {whole : Nat} {s rest : List Symbol} {n : Numeral}
    (h : numeralTail? negative whole s = some (n, rest)) : n.negative = negative ∧
      n.whole = whole ∧ ∃ w, ExponentSpelled n.exponent w ∧ s = ofFraction n.fraction ++
        (w ++ rest) := by
  simp only [numeralTail?, Option.bind_eq_bind, Option.bind_eq_some_iff, Option.pure_def,
    Option.some.injEq, Prod.mk.injEq] at h
  obtain ⟨⟨ds, s'⟩, hfraction, ⟨e, s''⟩, hexponent, rfl, rfl⟩ := h
  obtain ⟨w, hw, rfl⟩ := exponent?_eq_some hexponent
  exact ⟨rfl, rfl, w, hw, fraction?_eq_some hfraction⟩

theorem numeral?_eq_some {negative : Bool} {s rest : List Symbol} {n : Numeral}
    (h : numeral? negative s = some (n, rest)) : n.negative = negative ∧
      ∃ w, ExponentSpelled n.exponent w ∧
        s = ofDigits (Decimal.digits n.whole) ++ (ofFraction n.fraction ++ (w ++ rest)) := by
  unfold numeral? at h
  split at h
  · obtain ⟨hnegative, hwhole, w, hw, rfl⟩ := numeralTail?_eq_some h
    have hzero : Decimal.digits 0 = [0] := Decimal.digits_of_lt (by decide)
    rw [hwhole, hzero]
    exact ⟨hnegative, w, hw, rfl⟩
  · rename_i hfirst
    split at h
    · cases h
    · rename_i ds rest' hne hrun
      obtain ⟨hnegative, hwhole, w, hw, rfl⟩ := numeralTail?_eq_some h
      have hs := digitRun_eq hrun
      cases ds with
      | nil => exact absurd rfl hne
      | cons d ds =>
        have hd : d ≠ 0 := by
          rintro rfl
          exact hfirst _ hs
        rw [hwhole, Decimal.digits_value hd]
        exact ⟨hnegative, w, hw, hs⟩

theorem Quoted.scan_eq_some {s rest : List Symbol} {ps : List Part}
    (h : scan s = some (ps, rest)) :
    ∃ ws, List.Forall₂ Part.Spelled ps ws ∧ s = ws.flatten ++ some '"' :: rest := by
  fun_induction scan s generalizing ps rest with
  | case1 r =>
    cases h
    exact ⟨[], .nil, rfl⟩
  | case2 a b c d r ih =>
    simp only [Option.bind_eq_bind, Option.bind_eq_some_iff, Option.pure_def, Option.some.injEq,
      Prod.mk.injEq] at h
    obtain ⟨n, hunit, ⟨qs, rest'⟩, hs, rfl, rfl⟩ := h
    obtain ⟨ws, hws, rfl⟩ := ih hs
    exact ⟨_ :: ws, .cons (.unit hunit) hws, rfl⟩
  | case3 e r _ ih =>
    simp only [Option.bind_eq_bind, Option.bind_eq_some_iff, Option.pure_def, Option.some.injEq,
      Prod.mk.injEq] at h
    obtain ⟨c, hescape, ⟨qs, rest'⟩, hs, rfl, rfl⟩ := h
    obtain ⟨ws, hws, rfl⟩ := ih hs
    exact ⟨_ :: ws, .cons (.escape hescape) hws, rfl⟩
  | case4 => cases h
  | case5 c r hquote _ _ hplain ih =>
    simp only [Option.bind_eq_bind, Option.bind_eq_some_iff, Option.pure_def, Option.some.injEq,
      Prod.mk.injEq] at h
    obtain ⟨⟨qs, rest'⟩, hs, rfl, rfl⟩ := h
    obtain ⟨ws, hws, rfl⟩ := ih hs
    obtain ⟨hcontrol, hslash⟩ := not_or.mp hplain
    exact ⟨_ :: ws, .cons (.plain (fun hc => hquote hc) hslash hcontrol) hws, rfl⟩
  | case6 r ih =>
    simp only [Option.bind_eq_bind, Option.bind_eq_some_iff, Option.pure_def, Option.some.injEq,
      Prod.mk.injEq] at h
    obtain ⟨⟨qs, rest'⟩, hs, rfl, rfl⟩ := h
    obtain ⟨ws, hws, rfl⟩ := ih hs
    exact ⟨_ :: ws, .cons .stray hws, rfl⟩
  | case7 => cases h

theorem Token.read?_eq_some {s rest : List Symbol} {t : Token} (h : read? s = some (t, rest)) :
    ∃ w, t.Spelled w ∧ s = w ++ rest := by
  unfold read? at h
  split at h
  case h_10 r =>
    simp only [Option.bind_eq_bind, Option.bind_eq_some_iff, Option.pure_def, Option.some.injEq,
      Prod.mk.injEq] at h
    obtain ⟨⟨ps, rest'⟩, hscan, rfl, rfl⟩ := h
    obtain ⟨ws, hws, rfl⟩ := Quoted.scan_eq_some hscan
    exact ⟨_, .string hws, by simp⟩
  case h_11 r =>
    simp only [Option.bind_eq_bind, Option.bind_eq_some_iff, Option.pure_def, Option.some.injEq,
      Prod.mk.injEq] at h
    obtain ⟨⟨n, rest'⟩, hread, rfl, rfl⟩ := h
    obtain ⟨hnegative, w, hw, rfl⟩ := numeral?_eq_some hread
    exact ⟨_, .number ⟨w, hw, rfl⟩, by simp [hnegative]⟩
  case h_12 r =>
    simp only [Option.bind_eq_bind, Option.bind_eq_some_iff, Option.pure_def, Option.some.injEq,
      Prod.mk.injEq] at h
    obtain ⟨⟨n, rest'⟩, hread, rfl, rfl⟩ := h
    obtain ⟨hnegative, w, hw, rfl⟩ := numeral?_eq_some hread
    exact ⟨_, .number ⟨w, hw, rfl⟩, by simp [hnegative]⟩
  all_goals
    cases h
    exact ⟨_, .fixed nofun nofun, rfl⟩

/-! ## Tokens of a value -/

mutual

def tokensOf : Json → List Token
  | .null => [.null]
  | .bool b => [.bool b]
  | .number n => [.number n]
  | .string s => [.string s]
  | .array [] => [.openArray, .closeArray]
  | .array (v :: vs) => .openArray :: tokensOf v ++ itemTokens vs ++ [.closeArray]
  | .object [] => [.openObject, .closeObject]
  | .object ((k, v) :: ms) =>
    .openObject :: .string k :: .colon :: tokensOf v ++ memberTokens ms ++ [.closeObject]

/-- The tokens of further items, each behind a comma. -/
def itemTokens : List Json → List Token
  | [] => []
  | v :: vs => .comma :: tokensOf v ++ itemTokens vs

/-- The tokens of further members, each behind a comma. -/
def memberTokens : List (Option String × Json) → List Token
  | [] => []
  | (k, v) :: ms => .comma :: .string k :: .colon :: tokensOf v ++ memberTokens ms

end

mutual

theorem pieceTokens_pieces (depth : Nat) (v : Json) :
    pieceTokens (pieces depth v) = tokensOf v := by
  cases v with
  | null | bool | number | string => rfl
  | array items =>
    cases items with
    | nil => rfl
    | cons v vs =>
      simp only [pieces, tokensOf, pieceTokens_append, pieceTokens_token, pieceTokens_line,
        List.cons_append, pieceTokens_pieces, pieceTokens_itemPieces]
      rfl
  | object members =>
    cases members with
    | nil => rfl
    | cons m ms =>
      obtain ⟨k, v⟩ := m
      simp only [pieces, tokensOf, pieceTokens_append, pieceTokens_token, pieceTokens_line,
        pieceTokens_blank, List.cons_append, pieceTokens_pieces, pieceTokens_memberPieces]
      rfl

theorem pieceTokens_itemPieces (depth : Nat) (vs : List Json) :
    pieceTokens (itemPieces depth vs) = itemTokens vs := by
  cases vs with
  | nil => rfl
  | cons v vs =>
    simp only [itemPieces, itemTokens, pieceTokens_append, pieceTokens_token, pieceTokens_line,
      List.cons_append, pieceTokens_pieces, pieceTokens_itemPieces]

theorem pieceTokens_memberPieces (depth : Nat) (ms : List (Option String × Json)) :
    pieceTokens (memberPieces depth ms) = memberTokens ms := by
  cases ms with
  | nil => rfl
  | cons m ms =>
    obtain ⟨k, v⟩ := m
    simp only [memberPieces, memberTokens, pieceTokens_append, pieceTokens_token,
      pieceTokens_line, pieceTokens_blank, List.cons_append, pieceTokens_pieces,
      pieceTokens_memberPieces]

end

def listedItems (vs : List Json) : List Token := vs.flatMap fun v => tokensOf v ++ [.comma]

def listedMembers (ms : List (Option String × Json)) : List Token :=
  ms.flatMap fun m => .string m.1 :: .colon :: tokensOf m.2 ++ [.comma]

theorem tokensOf_array (vs : List Json) (v : Json) : tokensOf (.array (vs ++ [v])) =
    .openArray :: listedItems vs ++ tokensOf v ++ [.closeArray] := by
  have hitems (vs : List Json) :
      itemTokens (vs ++ [v]) = .comma :: listedItems vs ++ tokensOf v := by
    induction vs with
    | nil => simp [itemTokens, listedItems]
    | cons w vs ih => simp [itemTokens, listedItems, ih]
  cases vs with
  | nil => simp [tokensOf, itemTokens, listedItems]
  | cons w vs => simp [tokensOf, hitems, listedItems]

theorem tokensOf_object (ms : List (Option String × Json)) (k : Option String) (v : Json) :
    tokensOf (.object (ms ++ [(k, v)])) =
      .openObject :: listedMembers ms ++ .string k :: .colon :: tokensOf v ++ [.closeObject] := by
  have hmembers (ms : List (Option String × Json)) : memberTokens (ms ++ [(k, v)]) =
      .comma :: listedMembers ms ++ .string k :: .colon :: tokensOf v := by
    induction ms with
    | nil => simp [memberTokens, listedMembers]
    | cons m ms ih => simp [memberTokens, listedMembers, ih]
  cases ms with
  | nil => simp [tokensOf, memberTokens, listedMembers]
  | cons m ms => simp [tokensOf, hmembers, listedMembers]

/-! ## Tokens that lead to a state -/

def Frame.spent : Frame → List Token
  | .array before => .openArray :: listedItems before.reverse
  | .object before k => .openObject :: listedMembers before.reverse ++ [.string k, .colon]

/-- The tokens of the open frames, the outermost first. -/
def framesSpent : List Frame → List Token
  | [] => []
  | f :: fs => framesSpent fs ++ f.spent

namespace State

def spent : State → List Token
  | .value frames => framesSpent frames
  | .item frames => framesSpent frames ++ [.openArray]
  | .key frames before _ => framesSpent frames ++ .openObject :: listedMembers before.reverse
  | .colon frames before k =>
    framesSpent frames ++ .openObject :: listedMembers before.reverse ++ [.string k]
  | .after frames v => framesSpent frames ++ tokensOf v

/-- An object that was just opened has no members yet. -/
def Sound : State → Prop
  | .key _ before true => before = []
  | _ => True

theorem begin?_spent {frames : List Frame} {t : Token} {s : State}
    (h : begin? frames t = some s) : s.Sound ∧ s.spent = framesSpent frames ++ [t] := by
  unfold begin? at h
  split at h
  all_goals cases h
  all_goals exact ⟨by simp [Sound], by simp [spent, tokensOf, listedMembers]⟩

theorem step_spent {s s' : State} {t : Token} (hs : s.Sound) (h : s.step t = some s') :
    s'.Sound ∧ s'.spent = s.spent ++ [t] := by
  unfold step at h
  split at h
  case h_1 => exact begin?_spent h
  case h_2 =>
    cases h
    exact ⟨trivial, by simp [spent, tokensOf]⟩
  case h_3 =>
    obtain ⟨hsound, hspent⟩ := begin?_spent h
    refine ⟨hsound, ?_⟩
    rw [hspent]
    simp [spent, framesSpent, Frame.spent, listedItems]
  case h_4 =>
    cases h
    exact ⟨trivial, by simp [spent]⟩
  case h_5 =>
    cases h
    cases hs
    exact ⟨trivial, by simp [spent, tokensOf, listedMembers]⟩
  case h_6 =>
    cases h
    exact ⟨trivial, by simp [spent, framesSpent, Frame.spent]⟩
  case h_7 =>
    cases h
    exact ⟨trivial, by simp [spent, framesSpent, Frame.spent, listedItems]⟩
  case h_8 =>
    cases h
    refine ⟨trivial, ?_⟩
    rw [spent, List.reverse_cons, tokensOf_array]
    simp [spent, framesSpent, Frame.spent]
  case h_9 =>
    cases h
    exact ⟨trivial, by simp [spent, framesSpent, Frame.spent, listedMembers]⟩
  case h_10 =>
    cases h
    refine ⟨trivial, ?_⟩
    rw [spent, List.reverse_cons, tokensOf_object]
    simp [spent, framesSpent, Frame.spent]
  case h_11 => cases h

theorem run_spent {s s' : State} {ts : List Token} (hs : s.Sound) (h : s.run ts = some s') :
    s'.spent = s.spent ++ ts := by
  induction ts generalizing s with
  | nil =>
    cases h
    simp
  | cons t ts ih =>
    rw [run] at h
    split at h
    · cases h
    · rename_i s₁ hstep
      obtain ⟨hsound, hspent⟩ := step_spent hs hstep
      rw [ih hsound h, hspent, List.append_assoc, List.singleton_append]

end State

/-- The tokens from which a value was read are those of the value. -/
theorem ofTokens?_eq_some_iff {ts : List Token} {v : Json} :
    ofTokens? ts = some v ↔ ts = tokensOf v := by
  constructor
  · intro h
    simp only [ofTokens?, Option.bind_eq_bind, Option.bind_eq_some_iff] at h
    obtain ⟨s, hrun, hvalue⟩ := h
    have hspent := State.run_spent (s := .value []) trivial hrun
    unfold State.value? at hvalue
    split at hvalue
    · cases hvalue
      exact hspent.symm
    · cases hvalue
  · rintro rfl
    have hrun := State.run_pieces [] v 0 []
    rw [List.append_nil, pieceTokens_pieces] at hrun
    simp [ofTokens?, hrun, State.run, State.value?]

/-! ## Documents -/

/-- Tokens in a row, each in one of its spellings, with blanks before, between and after them. -/
inductive Laid : List Token → List Symbol → Prop
  | nil : Laid [] []
  | blank {b : Symbol} (hb : isSpace b = true) {ts : List Token} {s : List Symbol}
      (h : Laid ts s) : Laid ts (b :: s)
  | token {t : Token} {w : List Symbol} (ht : t.Spelled w) {ts : List Token} {s : List Symbol}
      (h : Laid ts s) : Laid (t :: ts) (w ++ s)

/-- The text is a document of the value. -/
def Document (s : List Symbol) (v : Json) : Prop := Laid (tokensOf v) s

theorem tokensFrom_eq_some {found ts : List Token} {s : List Symbol}
    (h : tokensFrom found s = some ts) : ∃ ts', ts = found.reverse ++ ts' ∧ Laid ts' s := by
  fun_induction tokensFrom found s with
  | case1 found =>
    cases h
    exact ⟨[], by simp, .nil⟩
  | case2 found c r hspace ih =>
    obtain ⟨ts', hts, hlaid⟩ := ih h
    exact ⟨ts', hts, .blank hspace hlaid⟩
  | case3 => cases h
  | case4 found c r hspace t rest hread ih =>
    obtain ⟨ts', rfl, hlaid⟩ := ih h
    obtain ⟨w, hw, hs⟩ := Token.read?_eq_some hread
    exact ⟨t :: ts', by simp, hs ▸ .token hw hlaid⟩

/-- No other token than a number starts like the rest of a number. -/
theorem Token.Spelled.ends {t : Token} {w : List Symbol} (h : t.Spelled w)
    (ht : ∀ n, t ≠ .number n) (s : List Symbol) : Ends (w ++ s) := by
  cases h with
  | fixed _ hstring =>
    cases t with
    | number n => exact absurd rfl (ht n)
    | string s => exact absurd rfl (hstring s)
    | bool b => cases b <;> exact ends_cons (by decide) (by decide)
    | _ => exact ends_cons (by decide) (by decide)
  | number => exact absurd rfl (ht _)
  | string => exact ends_cons (by decide) (by decide)

theorem Laid.ends {ts : List Token} {s : List Symbol} (h : Laid ts s)
    (ht : ∀ n, ts.head? ≠ some (.number n)) : Ends s := by
  cases h with
  | nil => exact ends_nil
  | blank hb =>
    simp only [isSpace, Bool.or_eq_true, beq_iff_eq] at hb
    rcases hb with ((rfl | rfl) | rfl) | rfl <;> exact ends_cons (by decide) (by decide)
  | token hw => exact hw.ends (fun n hn => ht n (congrArg some hn)) _

theorem State.step_number {s s' : State} {n : Numeral} (h : s.step (.number n) = some s') :
    ∃ frames v, s' = .after frames v := by
  cases s with
  | value | item =>
    cases h
    exact ⟨_, _, rfl⟩
  | key _ _ opened => cases opened <;> cases h
  | colon => cases h
  | after frames v =>
    cases frames with
    | nil => cases h
    | cons f frames => cases f <;> cases h

theorem State.step_after_number (frames : List Frame) (v : Json) (n : Numeral) :
    (State.after frames v).step (.number n) = none := by
  cases frames with
  | nil => rfl
  | cons f frames => cases f <;> rfl

/-- Tokens in a row are told from each other, as the grammar has no number next to a number. -/
theorem Laid.cut {ts : List Token} {s : List Symbol} (h : Laid ts s) {st st' : State}
    (hrun : st.run ts = some st') (found : List Token) :
    tokensFrom found s = some (found.reverse ++ ts) := by
  induction h generalizing st found with
  | nil => rw [tokensFrom, List.append_nil]
  | blank hb _ ih => rw [tokensFrom, if_pos hb, ih hrun]
  | @token t w hw ts s hlaid ih =>
    rw [State.run] at hrun
    split at hrun
    · cases hrun
    · rename_i st₁ hstep
      have hends : ∀ n, t = .number n → Ends s := by
        rintro n rfl
        refine hlaid.ends fun m hm => ?_
        obtain ⟨ts', rfl⟩ := List.head?_eq_some_iff.mp hm
        obtain ⟨frames, v, rfl⟩ := State.step_number hstep
        rw [State.run, State.step_after_number] at hrun
        cases hrun
      rw [tokensFrom_read found (Token.read?_spelled hw hends), ih hrun]
      simp

theorem parse_eq_some_iff {s : List Symbol} {v : Json} : parse s = some v ↔ Document s v := by
  simp only [parse, Option.bind_eq_bind, Option.bind_eq_some_iff]
  constructor
  · rintro ⟨ts, htokens, hvalue⟩
    obtain ⟨ts', rfl, hlaid⟩ := tokensFrom_eq_some htokens
    rw [ofTokens?_eq_some_iff] at hvalue
    rw [Document, ← hvalue]
    exact hlaid
  · intro hlaid
    have hrun := State.run_pieces [] v 0 []
    rw [List.append_nil, pieceTokens_pieces] at hrun
    exact ⟨tokensOf v, hlaid.cut hrun [], ofTokens?_eq_some_iff.mpr rfl⟩

end CertRuns.Json
