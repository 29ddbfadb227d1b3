import CertRuns.Json.Parser
import CertRuns.Proofs.Json.Tokens

/-!
# Documents that are written are read again

Reading goes in two steps. The text of a value is cut into the tokens that it was written from,
however they are laid out; and the tokens of a value, met where a value is due, leave the parser
behind just this value.

* `Layout write` : a way to write pieces that keeps tokens as they are and puts blanks for the rest;
* `Cut write ps` : the text of pieces is cut into the tokens that they hold; `cut_pieces`;
* `State.run_pieces` : what the tokens of a value make of the parser's state;
* `parseText_compact`, `parseText_pretty` : the value of a text that was written.
-/

namespace CertRuns.Json

open Text (Symbol)

/-! ## Tokens of a text -/

/-- No token starts with a blank. -/
theorem Token.read?_space {c : Symbol} (h : isSpace c = true) (r : List Symbol) :
    read? (c :: r) = none := by
  simp only [isSpace, Bool.or_eq_true, beq_iff_eq] at h
  rcases h with ((rfl | rfl) | rfl) | rfl <;> rfl

theorem tokensFrom_read (found : List Token) {s rest : List Symbol} {t : Token}
    (h : Token.read? s = some (t, rest)) : tokensFrom found s = tokensFrom (t :: found) rest := by
  cases s with
  | nil => cases h
  | cons c r =>
    have hspace : ¬ isSpace c = true := by
      intro hc
      rw [Token.read?_space hc] at h
      cases h
    rw [tokensFrom, if_neg hspace]
    split
    · rename_i heq
      rw [h] at heq
      cases heq
    · rename_i heq
      rw [h] at heq
      cases heq
      rfl

/-- The token at the start of a text. -/
theorem tokensFrom_token (found : List Token) (t : Token) {rest : List Symbol}
    (h : ∀ n, t = .number n → Ends rest) :
    tokensFrom found (t.chars.map some ++ rest) = tokensFrom (t :: found) rest :=
  tokensFrom_read found (t.read?_chars h)

theorem tokensFrom_space (found : List Token) {cs : List Char}
    (h : ∀ c ∈ cs, isSpace (some c) = true) (rest : List Symbol) :
    tokensFrom found (cs.map some ++ rest) = tokensFrom found rest := by
  induction cs with
  | nil => rfl
  | cons c cs ih =>
    rw [List.map_cons, List.cons_append, tokensFrom, if_pos (h c (List.mem_cons_self ..))]
    exact ih fun c hc => h c (List.mem_cons_of_mem _ hc)

/-! ## Layouts -/

def Piece.token? : Piece → Option Token
  | .token t => some t
  | _ => none

/-- A way to write pieces: tokens as they are, and blanks or nothing for all else. -/
structure Layout (write : Piece → List Char) : Prop where
  token : ∀ t, write (.token t) = t.chars
  space : ∀ p, p.token? = none → ∀ c ∈ write p, isSpace (some c) = true

theorem layout_compact : Layout Piece.compactChars where
  token _ := rfl
  space p hp c hc := by
    cases p with
    | token t => cases hp
    | _ => cases hc

theorem layout_pretty : Layout Piece.prettyChars where
  token _ := rfl
  space p hp c hc := by
    cases p with
    | token t => cases hp
    | line depth =>
      rcases List.mem_cons.1 hc with rfl | hc
      · rfl
      · rw [List.eq_of_mem_replicate hc]
        rfl
    | blank =>
      rw [List.mem_singleton.1 hc]
      rfl

def pieceTokens (ps : List Piece) : List Token := ps.filterMap Piece.token?

@[simp] theorem pieceTokens_token (t : Token) (ps : List Piece) :
    pieceTokens (.token t :: ps) = t :: pieceTokens ps := rfl

@[simp] theorem pieceTokens_line (depth : Nat) (ps : List Piece) :
    pieceTokens (.line depth :: ps) = pieceTokens ps := rfl

@[simp] theorem pieceTokens_blank (ps : List Piece) :
    pieceTokens (.blank :: ps) = pieceTokens ps := rfl

@[simp] theorem pieceTokens_append (ps qs : List Piece) :
    pieceTokens (ps ++ qs) = pieceTokens ps ++ pieceTokens qs := by
  simp [pieceTokens]

section Reading
variable {write : Piece → List Char}

def written (write : Piece → List Char) (ps : List Piece) : List Symbol :=
  (ps.flatMap write).map some

@[simp] theorem written_nil : written write [] = [] := rfl

@[simp] theorem written_cons (p : Piece) (ps : List Piece) :
    written write (p :: ps) = (write p).map some ++ written write ps := by
  simp [written]

@[simp] theorem written_append (ps qs : List Piece) :
    written write (ps ++ qs) = written write ps ++ written write qs := by
  simp [written]

theorem ends_space {cs : List Char} (h : ∀ c ∈ cs, isSpace (some c) = true) {rest : List Symbol}
    (hrest : Ends rest) : Ends (cs.map some ++ rest) := by
  cases cs with
  | nil => exact hrest
  | cons c cs =>
    have hc := h c (List.mem_cons_self ..)
    simp only [isSpace, Bool.or_eq_true, beq_iff_eq, Option.some.injEq] at hc
    rcases hc with ((rfl | rfl) | rfl) | rfl <;> exact ends_cons (by decide) (by decide)

/-- The text of pieces is cut into the tokens that they hold, if no number goes on after it. -/
def Cut (write : Piece → List Char) (ps : List Piece) : Prop :=
  ∀ found rest, Ends rest → tokensFrom found (written write ps ++ rest) =
    tokensFrom ((pieceTokens ps).reverse ++ found) rest

/-- No number goes on with the text of pieces. -/
def Parted (write : Piece → List Char) (ps : List Piece) : Prop :=
  ∀ rest, Ends rest → Ends (written write ps ++ rest)

theorem cut_nil : Cut write [] := fun _ _ _ => rfl

theorem Cut.append {ps qs : List Piece} (hps : Cut write ps) (hqs : Cut write qs)
    (hparted : Parted write qs) : Cut write (ps ++ qs) := by
  intro found rest h
  rw [written_append, List.append_assoc, hps found _ (hparted rest h), hqs _ rest h,
    pieceTokens_append, List.reverse_append, List.append_assoc]

/-- Punctuation and strings may be followed by anything. -/
theorem Cut.cons_token (hw : Layout write) {t : Token} (ht : ∀ n, t ≠ .number n) {ps : List Piece}
    (hps : Cut write ps) : Cut write (.token t :: ps) := by
  intro found rest h
  rw [written_cons, hw.token, List.append_assoc,
    tokensFrom_token found t fun n hn => absurd hn (ht n), hps _ rest h]
  simp [pieceTokens, Piece.token?]

theorem Cut.cons_space (hw : Layout write) {p : Piece} (hp : p.token? = none) {ps : List Piece}
    (hps : Cut write ps) : Cut write (p :: ps) := by
  intro found rest h
  rw [written_cons, List.append_assoc, tokensFrom_space found (hw.space p hp), hps found rest h]
  simp [pieceTokens, hp]

theorem cut_token (hw : Layout write) (t : Token) : Cut write [.token t] := by
  intro found rest h
  rw [written_cons, hw.token, written_nil, List.append_nil, tokensFrom_token found t fun _ _ => h]
  rfl

theorem parted_comma (hw : Layout write) (ps : List Piece) :
    Parted write (.token .comma :: ps) := by
  intro rest _
  rw [written_cons, hw.token]
  exact ends_cons (by decide) (by decide)

theorem parted_itemPieces (hw : Layout write) (depth : Nat) (vs : List Json) :
    Parted write (itemPieces depth vs) := by
  cases vs with
  | nil => exact fun _ h => h
  | cons v vs => exact parted_comma hw _

theorem parted_memberPieces (hw : Layout write) (depth : Nat)
    (ms : List (Option String × Json)) : Parted write (memberPieces depth ms) := by
  cases ms with
  | nil => exact fun _ h => h
  | cons m ms => exact parted_comma hw _

/-- A closing bracket may stand on a line of its own. -/
theorem parted_closing (hw : Layout write) (depth : Nat) {t : Token}
    (ht : t = .closeArray ∨ t = .closeObject) : Parted write [.line depth, .token t] := by
  intro rest _
  rw [written_cons, List.append_assoc, written_cons, hw.token]
  refine ends_space (hw.space _ rfl) ?_
  rcases ht with rfl | rfl <;> exact ends_cons (by decide) (by decide)

mutual

theorem cut_pieces (hw : Layout write) (v : Json) (depth : Nat) :
    Cut write (pieces depth v) := by
  cases v with
  | null | bool | number | string => exact cut_token hw _
  | array items =>
    cases items with
    | nil => exact (cut_token hw _).cons_token hw (by simp)
    | cons v vs =>
      have hfirst : Cut write (.token .openArray :: .line (depth + 1) :: pieces (depth + 1) v) :=
        ((cut_pieces hw v (depth + 1)).cons_space hw rfl).cons_token hw (by simp)
      have hclosing : Cut write [.line depth, .token .closeArray] :=
        (cut_token hw _).cons_space hw rfl
      exact (hfirst.append (cut_itemPieces hw vs _) (parted_itemPieces hw _ vs)).append hclosing
        (parted_closing hw depth (.inl rfl))
  | object members =>
    cases members with
    | nil => exact (cut_token hw _).cons_token hw (by simp)
    | cons m ms =>
      obtain ⟨k, v⟩ := m
      have hfirst : Cut write (.token .openObject :: .line (depth + 1) :: .token (.string k) ::
          .token .colon :: .blank :: pieces (depth + 1) v) :=
        (((((cut_pieces hw v (depth + 1)).cons_space hw rfl).cons_token hw (by simp)).cons_token
          hw (by simp)).cons_space hw rfl).cons_token hw (by simp)
      have hclosing : Cut write [.line depth, .token .closeObject] :=
        (cut_token hw _).cons_space hw rfl
      exact (hfirst.append (cut_memberPieces hw ms _) (parted_memberPieces hw _ ms)).append
        hclosing (parted_closing hw depth (.inr rfl))

theorem cut_itemPieces (hw : Layout write) (vs : List Json) (depth : Nat) :
    Cut write (itemPieces depth vs) := by
  cases vs with
  | nil => exact cut_nil
  | cons v vs =>
    have hfirst : Cut write (.token .comma :: .line depth :: pieces depth v) :=
      ((cut_pieces hw v depth).cons_space hw rfl).cons_token hw (by simp)
    exact hfirst.append (cut_itemPieces hw vs depth) (parted_itemPieces hw depth vs)

theorem cut_memberPieces (hw : Layout write) (ms : List (Option String × Json)) (depth : Nat) :
    Cut write (memberPieces depth ms) := by
  cases ms with
  | nil => exact cut_nil
  | cons m ms =>
    obtain ⟨k, v⟩ := m
    have hfirst : Cut write (.token .comma :: .line depth :: .token (.string k) ::
        .token .colon :: .blank :: pieces depth v) :=
      (((((cut_pieces hw v depth).cons_space hw rfl).cons_token hw (by simp)).cons_token
        hw (by simp)).cons_space hw rfl).cons_token hw (by simp)
    exact hfirst.append (cut_memberPieces hw ms depth) (parted_memberPieces hw depth ms)

end

end Reading

/-! ## Values of tokens -/

namespace State

theorem run_cons {s s' : State} {t : Token} (h : s.step t = some s') (ts : List Token) :
    run s (t :: ts) = run s' ts := by
  rw [run, h]

/-- Where an array was just opened, a value may come like anywhere else. -/
theorem run_item (frames : List Frame) (v : Json) (depth : Nat) (ts : List Token) :
    run (.item frames) (pieceTokens (pieces depth v) ++ ts) =
      run (.value (.array [] :: frames)) (pieceTokens (pieces depth v) ++ ts) := by
  cases v with
  | array items => cases items <;> rfl
  | object members => cases members <;> rfl
  | _ => rfl

mutual

theorem run_pieces (frames : List Frame) (v : Json) (depth : Nat) (ts : List Token) :
    run (.value frames) (pieceTokens (pieces depth v) ++ ts) = run (.after frames v) ts := by
  cases v with
  | null | bool | number | string => rfl
  | array items =>
    cases items with
    | nil => rfl
    | cons v vs =>
      simp only [pieces, pieceTokens_append, pieceTokens_token, pieceTokens_line, List.cons_append,
        List.append_assoc]
      rw [run_cons rfl, run_item, run_pieces, run_itemPieces]
      rfl
  | object members =>
    cases members with
    | nil => rfl
    | cons m ms =>
      obtain ⟨k, v⟩ := m
      simp only [pieces, pieceTokens_append, pieceTokens_token, pieceTokens_line,
        pieceTokens_blank, List.cons_append, List.append_assoc]
      rw [run_cons rfl, run_cons rfl, run_cons rfl, run_pieces, run_memberPieces]
      rfl

/-- Further items extend the array that is open. -/
theorem run_itemPieces (frames : List Frame) (before : List Json) (v : Json) (vs : List Json)
    (depth : Nat) (ts : List Token) :
    run (.after (.array before :: frames) v)
        (pieceTokens (itemPieces depth vs) ++ .closeArray :: ts) =
      run (.after frames (.array (before.reverse ++ v :: vs))) ts := by
  cases vs with
  | nil =>
    rw [itemPieces, pieceTokens, List.filterMap_nil, List.nil_append, run_cons rfl,
      List.reverse_cons]
  | cons w vs =>
    simp only [itemPieces, pieceTokens_append, pieceTokens_token, pieceTokens_line,
      List.cons_append, List.append_assoc]
    rw [run_cons rfl, run_pieces, run_itemPieces, List.reverse_cons, List.append_assoc]
    rfl

/-- Further members extend the object that is open. -/
theorem run_memberPieces (frames : List Frame) (before : List (Option String × Json))
    (k : Option String) (v : Json) (ms : List (Option String × Json)) (depth : Nat)
    (ts : List Token) :
    run (.after (.object before k :: frames) v)
        (pieceTokens (memberPieces depth ms) ++ .closeObject :: ts) =
      run (.after frames (.object (before.reverse ++ (k, v) :: ms))) ts := by
  cases ms with
  | nil =>
    rw [memberPieces, pieceTokens, List.filterMap_nil, List.nil_append, run_cons rfl,
      List.reverse_cons]
  | cons m ms =>
    obtain ⟨l, w⟩ := m
    simp only [memberPieces, pieceTokens_append, pieceTokens_token, pieceTokens_line,
      pieceTokens_blank, List.cons_append, List.append_assoc]
    rw [run_cons rfl, run_cons rfl, run_cons rfl, run_pieces, run_memberPieces,
      List.reverse_cons, List.append_assoc]
    rfl

end

end State

/-! ## Documents -/

/-- The value of a text that was written in some layout. -/
theorem parse_written {write : Piece → List Char} (hw : Layout write) (v : Json) (depth : Nat) :
    parse (written write (pieces depth v)) = some v := by
  have hcut := cut_pieces hw v depth [] [] ends_nil
  have hrun := State.run_pieces [] v depth []
  rw [List.append_nil] at hcut hrun
  rw [parse, tokens, hcut, tokensFrom, List.append_nil, List.reverse_reverse]
  simp [ofTokens?, hrun, State.run, State.value?]

theorem parseText_compact (v : Json) : parseText v.compact = some v := by
  rw [parseText, Text.ofText, compact, String.toList_ofList]
  exact parse_written layout_compact v 0

theorem parseText_pretty (v : Json) : parseText v.pretty = some v := by
  rw [parseText, Text.ofText, pretty, String.toList_ofList]
  exact parse_written layout_pretty v 0

end CertRuns.Json
