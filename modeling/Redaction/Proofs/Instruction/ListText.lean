import Mathlib.Data.List.TakeWhile
import Redaction.Instruction.Scanner
import Redaction.Proofs.Instruction.Characters

/-!
# The text of a list

What stands after an opening bracket, cut up by its units outside quotes: pieces, commas, quoted
parts, and the bracket that closes the list. Every text begins with the text of one list and of no
other. It reaches to the first closing bracket outside quotes, or to the end of a text without one.
Reading a list gives the entries of its pieces and the texts of its quoted parts, and leaves what
comes after the list.
-/

namespace Redaction.Instruction

open Redaction.Text Redaction.Text.Utf8

/-- The part that a unit plays in a list, outside quotes. -/
inductive Role where
  | entry
  | stray
  | comma
  | quote
  | closer
  deriving DecidableEq

section

variable {α : Type} (A : Alphabet α)

/-- Either closing bracket closes either kind of list. Brackets that open and markers mean nothing
within a list. -/
def Alphabet.role (u : α) : Role :=
  match A.delimiter? u with
  | none | some .invert => .entry
  | some .openSet | some .openParams | some .run | some .chain => .stray
  | some .comma => .comma
  | some .quote => .quote
  | some .closeSet | some .closeParams => .closer

theorem Alphabet.role_eq_quote_iff {u : α} :
    A.role u = .quote ↔ A.delimiter? u = some .quote := by
  rw [role]
  split <;> simp_all

/-- What a list does at a unit depends on the part that the unit plays. -/
theorem readList_cons (buffer : List α) (u : α) (rest : List α) :
    readList A buffer (u :: rest) =
      match A.role u with
      | .entry => readList A (buffer ++ [u]) rest
      | .stray => readList A buffer rest
      | .comma => (readList A [] rest).map (flush A buffer ++ ·) id
      | .quote =>
          (readList A [] (readQuoted A rest).2).map
            (flush A buffer ++ .quoted (readQuoted A rest).1 :: ·) id
      | .closer => (flush A buffer, rest) := by
  rw [readList, Alphabet.role]
  cases A.delimiter? u with
  | none => rfl
  | some d => cases d <;> rfl

/-! ## Pieces -/

/-- A unit that neither ends a piece of a list nor closes the list. -/
def Alphabet.InPiece (u : α) : Prop := A.role u = .entry ∨ A.role u = .stray

instance : DecidablePred A.InPiece := fun u =>
  inferInstanceAs (Decidable (A.role u = .entry ∨ A.role u = .stray))

/-- Units outside quotes with no comma and no closing bracket among them. -/
structure Piece where
  units : List α
  inPiece : ∀ u ∈ units, A.InPiece u

/-- A unit that plays a given part. -/
abbrev Mark (r : Role) := {u : α // A.role u = r}

variable {A}

namespace Piece

theorem eq_of_units_eq {p q : Piece A} (h : p.units = q.units) : p = q := by
  cases p
  cases q
  cases h
  rfl

/-- The same piece with no strays in it. -/
def withoutStrays (p : Piece A) : Piece A where
  units := p.units.filter (A.role · ≠ .stray)
  inPiece u hu := p.inPiece u (List.mem_of_mem_filter hu)

/-- The token of a piece. A piece of strays has none. -/
def tokens (p : Piece A) : List Token :=
  if p.withoutStrays.units = [] then [] else [.bare (A.text p.withoutStrays.units)]

@[simp] theorem withoutStrays_withoutStrays (p : Piece A) :
    p.withoutStrays.withoutStrays = p.withoutStrays :=
  eq_of_units_eq (by simp [withoutStrays])

@[simp] theorem tokens_withoutStrays (p : Piece A) : p.withoutStrays.tokens = p.tokens := by
  rw [tokens, tokens, withoutStrays_withoutStrays]

theorem flush_withoutStrays (p : Piece A) : flush A p.withoutStrays.units = p.tokens := by
  simp [flush, tokens]

/-- A list takes up the units of a piece, but for the strays. -/
theorem readList_append (p : Piece A) (buffer rest : List α) :
    readList A buffer (p.units ++ rest) = readList A (buffer ++ p.withoutStrays.units) rest := by
  obtain ⟨units, hunits⟩ := p
  induction units generalizing buffer with
  | nil => simp [withoutStrays]
  | cons u later ih =>
      obtain ⟨hu, hlater⟩ := List.forall_mem_cons.mp hunits
      have hih := fun buffer => ih buffer hlater
      simp only [withoutStrays] at hih ⊢
      rw [List.cons_append, readList_cons]
      rcases hu with hu | hu
      · simp [hu, hih]
      · simp [hu, hih]

/-- A piece ends where a unit follows that is in no piece. -/
theorem eq_of_append_eq {p q : Piece A} {xs ys : List α} (h : p.units ++ xs = q.units ++ ys)
    (hxs : ∀ u ∈ xs.head?, ¬A.InPiece u) (hys : ∀ u ∈ ys.head?, ¬A.InPiece u) :
    p = q ∧ xs = ys := by
  have htake : ∀ {p : Piece A} {xs : List α}, (∀ u ∈ xs.head?, ¬A.InPiece u) →
      (p.units ++ xs).takeWhile (A.InPiece ·) = p.units := by
    intro p xs hxs
    rw [List.takeWhile_append_of_pos (by simpa using p.inPiece)]
    cases xs with
    | nil => simp
    | cons u rest =>
        rw [List.takeWhile_cons_of_neg (by simpa using hxs u rfl), List.append_nil]
  have hunits : p.units = q.units := by rw [← htake hxs, h, htake hys]
  rw [hunits] at h
  exact ⟨eq_of_units_eq hunits, List.append_cancel_left h⟩

theorem exists_append (input : List α) : ∃ (p : Piece A) (left : List α),
    input = p.units ++ left ∧ ∀ u ∈ left.head?, ¬A.InPiece u := by
  refine ⟨⟨input.takeWhile (A.InPiece ·), fun u hu => ?_⟩, input.dropWhile (A.InPiece ·),
    List.takeWhile_append_dropWhile.symm, fun u hu => ?_⟩
  · simpa using List.mem_takeWhile_imp hu
  · have hhead := List.head?_dropWhile_not (A.InPiece ·) input
    rw [Option.mem_def.mp hu] at hhead
    simpa using hhead

end Piece

/-! ## Quoted parts -/

variable (A) in
/-- A unit that makes the one after it literal. -/
abbrev Escape := {u : α // A.role u ≠ .quote ∧ A.isEscape u = true}

variable (A) in
/-- A unit within quotes, with the escape before it if it has one. -/
inductive QuotedUnit where
  | plain (u : α) (quote : A.role u ≠ .quote) (escape : A.isEscape u = false)
  | escaped (mark : Escape A) (u : α)

namespace QuotedUnit

def value : QuotedUnit A → α
  | plain u _ _ => u
  | escaped _ u => u

def units : QuotedUnit A → List α
  | plain u _ _ => [u]
  | escaped mark u => [mark.val, u]

theorem quotedRun_append (v : QuotedUnit A) (rest : List α) :
    quotedRun A false (v.units ++ rest) = (quotedRun A false rest).map (v.value :: ·) id := by
  cases v with
  | plain u hquote hescape =>
      rw [ne_eq, A.role_eq_quote_iff] at hquote
      simp [units, value, quotedRun, hquote, hescape]
  | escaped mark u =>
      obtain ⟨mark, hquote, hescape⟩ := mark
      rw [ne_eq, A.role_eq_quote_iff] at hquote
      simp [units, value, quotedRun, hquote, hescape]

theorem eq_of_append_eq {v w : QuotedUnit A} {xs ys : List α}
    (h : v.units ++ xs = w.units ++ ys) : v = w ∧ xs = ys := by
  cases v with
  | plain u hquote hescape =>
      cases w with
      | plain u' hquote' hescape' =>
          cases h
          exact ⟨rfl, rfl⟩
      | escaped mark u' =>
          obtain ⟨hmark, -⟩ := List.cons.inj h
          rw [hmark, mark.2.2] at hescape
          cases hescape
  | escaped mark u =>
      obtain ⟨mark, hquote, hescape⟩ := mark
      cases w with
      | plain u' hquote' hescape' =>
          obtain ⟨hmark, -⟩ := List.cons.inj h
          rw [← hmark, hescape] at hescape'
          cases hescape'
      | escaped mark' u' =>
          obtain ⟨mark', hmark'⟩ := mark'
          cases h
          exact ⟨rfl, rfl⟩

end QuotedUnit

variable (A) in
/-- What follows an opening quote, as far as it is within the quotes. -/
structure QuotedPart where
  opening : Mark A .quote
  inner : List (QuotedUnit A)

variable (A) in
/-- Where a quoted part ends: at a quote, or at the end of the text, there possibly with an escape
that has nothing to make literal. -/
inductive EndsQuoted : List α → Prop
  | closing (quote : Mark A .quote) (rest : List α) : EndsQuoted (quote.val :: rest)
  | cut (unfinished : Option (Escape A)) : EndsQuoted (unfinished.toList.map (·.val))

namespace QuotedPart

def units (p : QuotedPart A) : List α := p.opening.val :: p.inner.flatMap QuotedUnit.units

def text (p : QuotedPart A) : String := A.text (p.inner.map QuotedUnit.value)

end QuotedPart

theorem quotedRun_inner (inner : List (QuotedUnit A)) (rest : List α) :
    quotedRun A false (inner.flatMap QuotedUnit.units ++ rest) =
      (quotedRun A false rest).map (inner.map QuotedUnit.value ++ ·) id := by
  induction inner with
  | nil => rfl
  | cons v later ih =>
      rw [List.flatMap_cons, List.append_assoc, v.quotedRun_append, ih, Prod.map_map]
      rfl

theorem quotedRun_closing (quote : Mark A .quote) (rest : List α) :
    quotedRun A false (quote.val :: rest) = ([], rest) := by
  rw [quotedRun, if_neg (by simp), if_pos (A.role_eq_quote_iff.mp quote.2)]

theorem quotedRun_unfinished (unfinished : Option (Escape A)) :
    quotedRun A false (unfinished.toList.map (·.val)) = ([], []) := by
  cases unfinished with
  | none => rfl
  | some mark =>
      obtain ⟨mark, hquote, hescape⟩ := mark
      rw [ne_eq, A.role_eq_quote_iff] at hquote
      simp [quotedRun, hquote, hescape]

theorem EndsQuoted.ne_append {xs : List α} (h : EndsQuoted A xs) (v : QuotedUnit A)
    (ys : List α) : xs ≠ v.units ++ ys := by
  rintro rfl
  generalize hxs : v.units ++ ys = xs at h
  cases h with
  | closing quote rest =>
      cases v with
      | plain u hquote hescape => exact hquote ((List.cons.inj hxs).1 ▸ quote.2)
      | escaped mark u => exact mark.2.1 ((List.cons.inj hxs).1 ▸ quote.2)
  | cut unfinished =>
      cases unfinished with
      | none => cases v <;> cases hxs
      | some mark =>
          cases v with
          | plain u hquote hescape =>
              rw [(List.cons.inj hxs).1, mark.2.2] at hescape
              cases hescape
          | escaped mark' u => cases (List.cons.inj hxs).2

theorem inner_eq_of_append_eq {inner inner' : List (QuotedUnit A)} {xs ys : List α}
    (h : inner.flatMap QuotedUnit.units ++ xs = inner'.flatMap QuotedUnit.units ++ ys)
    (hxs : EndsQuoted A xs) (hys : EndsQuoted A ys) : inner = inner' ∧ xs = ys := by
  induction inner generalizing inner' with
  | nil =>
      cases inner' with
      | nil => exact ⟨rfl, h⟩
      | cons w later' =>
          rw [List.flatMap_cons, List.append_assoc] at h
          exact absurd h (hxs.ne_append w _)
  | cons v later ih =>
      rw [List.flatMap_cons, List.append_assoc] at h
      cases inner' with
      | nil => exact absurd h.symm (hys.ne_append v _)
      | cons w later' =>
          rw [List.flatMap_cons, List.append_assoc] at h
          obtain ⟨rfl, hlater⟩ := QuotedUnit.eq_of_append_eq h
          obtain ⟨rfl, heq⟩ := ih hlater
          exact ⟨rfl, heq⟩

theorem QuotedPart.eq_of_append_eq {p q : QuotedPart A} {xs ys : List α}
    (h : p.units ++ xs = q.units ++ ys) (hxs : EndsQuoted A xs) (hys : EndsQuoted A ys) :
    p = q ∧ xs = ys := by
  obtain ⟨opening, inner⟩ := p
  obtain ⟨opening', inner'⟩ := q
  obtain ⟨hopening, hinner⟩ := List.cons.inj h
  obtain ⟨rfl, heq⟩ := inner_eq_of_append_eq hinner hxs hys
  obtain rfl := Subtype.ext hopening
  exact ⟨rfl, heq⟩

theorem closing_ne_unfinished (quote : Mark A .quote) (rest : List α)
    (unfinished : Option (Escape A)) :
    quote.val :: rest ≠ unfinished.toList.map (·.val) := by
  cases unfinished with
  | none => exact List.cons_ne_nil _ _
  | some mark =>
      intro h
      have hmark : quote.val = mark.val := (List.cons.inj h).1
      exact mark.2.1 (hmark ▸ quote.2)

theorem unfinished_injective :
    Function.Injective fun unfinished : Option (Escape A) => unfinished.toList.map (·.val) := by
  intro a b h
  have hlist : a.toList = b.toList := List.map_injective_iff.mpr Subtype.val_injective h
  simpa using congrArg List.head? hlist

theorem exists_inner : ∀ input : List α, ∃ (inner : List (QuotedUnit A)) (left : List α),
    input = inner.flatMap QuotedUnit.units ++ left ∧ EndsQuoted A left
  | [] => ⟨[], [], rfl, .cut none⟩
  | u :: rest => by
      by_cases hquote : A.role u = .quote
      · exact ⟨[], _, rfl, .closing ⟨u, hquote⟩ rest⟩
      · cases hescape : A.isEscape u with
        | false =>
            obtain ⟨inner, left, rfl, hleft⟩ := exists_inner rest
            exact ⟨.plain u hquote hescape :: inner, left, rfl, hleft⟩
        | true =>
            cases rest with
            | nil => exact ⟨[], _, rfl, .cut (some ⟨u, hquote, hescape⟩)⟩
            | cons v rest =>
                -- The escape takes the unit after it along, whatever that is.
                obtain ⟨inner, left, rfl, hleft⟩ := exists_inner rest
                exact ⟨.escaped ⟨u, hquote, hescape⟩ v :: inner, left, rfl, hleft⟩

/-! ## Lists -/

variable (A) in
/-- A piece, and what it is followed by. A text that ends before its list is closed ends outside
quotes or within a quoted part. -/
inductive ListText where
  | finish (piece : Piece A)
  | close (piece : Piece A) (closer : Mark A .closer)
  | comma (piece : Piece A) (mark : Mark A .comma) (later : ListText)
  | quoted (piece : Piece A) (part : QuotedPart A) (closing : Mark A .quote) (later : ListText)
  | cut (piece : Piece A) (part : QuotedPart A) (unfinished : Option (Escape A))

namespace ListText

def units : ListText A → List α
  | finish piece => piece.units
  | close piece closer => piece.units ++ [closer.val]
  | comma piece mark later => piece.units ++ mark.val :: later.units
  | quoted piece part closing later =>
      piece.units ++ part.units ++ closing.val :: later.units
  | cut piece part unfinished => piece.units ++ part.units ++ unfinished.toList.map (·.val)

def tokens : ListText A → List Token
  | finish piece | close piece _ => piece.tokens
  | comma piece _ later => piece.tokens ++ later.tokens
  | quoted piece part _ later => piece.tokens ++ .quoted part.text :: later.tokens
  | cut piece part _ => piece.tokens ++ [.quoted part.text]

def isClosed : ListText A → Bool
  | finish _ | cut _ _ _ => false
  | close _ _ => true
  | comma _ _ later | quoted _ _ _ later => later.isClosed

/-- The same list with no strays outside quotes. -/
def withoutStrays : ListText A → ListText A
  | finish piece => finish piece.withoutStrays
  | close piece closer => close piece.withoutStrays closer
  | comma piece mark later => comma piece.withoutStrays mark later.withoutStrays
  | quoted piece part closing later =>
      quoted piece.withoutStrays part closing later.withoutStrays
  | cut piece part unfinished => cut piece.withoutStrays part unfinished

@[simp] theorem tokens_withoutStrays (t : ListText A) : t.withoutStrays.tokens = t.tokens := by
  induction t with
  | finish | close | cut => simp [withoutStrays, tokens]
  | comma piece mark later ih | quoted piece part closing later ih =>
      simp [withoutStrays, tokens, ih]

@[simp] theorem isClosed_withoutStrays (t : ListText A) :
    t.withoutStrays.isClosed = t.isClosed := by
  induction t with
  | finish | close | cut => rfl
  | comma piece mark later ih | quoted piece part closing later ih => exact ih

theorem tokens_eq_of_withoutStrays_eq {t t' : ListText A}
    (h : t.withoutStrays = t'.withoutStrays) : t.tokens = t'.tokens := by
  rw [← t.tokens_withoutStrays, h, tokens_withoutStrays]

/-- An input begins with a list, and `rest` comes after it. Only a list that is closed can have
something after it. -/
structure Begins (t : ListText A) (input rest : List α) : Prop where
  eq_append : input = t.units ++ rest
  rest_eq_nil : t.isClosed = false → rest = []

theorem Begins.withoutStrays {t : ListText A} {input rest : List α} (h : t.Begins input rest) :
    t.withoutStrays.Begins (t.withoutStrays.units ++ rest) rest :=
  ⟨rfl, fun hopen => h.rest_eq_nil (t.isClosed_withoutStrays ▸ hopen)⟩

/-- Every piece begins with an empty buffer, so that the induction needs no other. -/
theorem readList_of_begins {t : ListText A} {input rest : List α} (h : t.Begins input rest) :
    readList A [] input = (t.tokens, rest) := by
  obtain ⟨rfl, hrest⟩ := h
  induction t with
  | finish piece =>
      rw [hrest rfl, units, piece.readList_append, readList, List.nil_append,
        piece.flush_withoutStrays, tokens]
  | close piece closer =>
      rw [units, List.append_assoc, piece.readList_append, List.singleton_append, readList_cons,
        closer.2, List.nil_append, piece.flush_withoutStrays, tokens]
  | comma piece mark later ih =>
      rw [units, List.append_assoc, List.cons_append, piece.readList_append, readList_cons, mark.2]
      simp only [ih hrest, List.nil_append, piece.flush_withoutStrays]
      rfl
  | quoted piece part closing later ih =>
      have hread : readQuoted A (part.inner.flatMap QuotedUnit.units ++
          (closing.val :: later.units ++ rest)) = (part.text, later.units ++ rest) := by
        rw [readQuoted, quotedRun_inner, List.cons_append, quotedRun_closing]
        simp [QuotedPart.text]
      rw [units, List.append_assoc, List.append_assoc, QuotedPart.units, List.cons_append,
        piece.readList_append, readList_cons, part.opening.2]
      simp only [hread, ih hrest, List.nil_append, piece.flush_withoutStrays]
      rfl
  | cut piece part unfinished =>
      have hread : readQuoted A (part.inner.flatMap QuotedUnit.units ++
          unfinished.toList.map (·.val)) = (part.text, []) := by
        rw [readQuoted, quotedRun_inner, quotedRun_unfinished]
        simp [QuotedPart.text]
      rw [hrest rfl, units, List.append_nil, List.append_assoc, QuotedPart.units, List.cons_append,
        piece.readList_append, readList_cons, part.opening.2]
      simp only [hread, readList, List.nil_append, piece.flush_withoutStrays]
      rfl

/-- A text is cut at the first unit outside its first piece. What follows a comma or a closing quote
is shorter, and begins with a list of its own. -/
theorem exists_begins (input : List α) : ∃ (t : ListText A) (rest : List α),
    t.Begins input rest := by
  obtain ⟨piece, left, hinput, hhead⟩ := Piece.exists_append (A := A) input
  cases left with
  | nil => exact ⟨.finish piece, [], hinput, fun _ => rfl⟩
  | cons u left =>
      cases hrole : A.role u with
      | entry => exact absurd (.inl hrole) (hhead u rfl)
      | stray => exact absurd (.inr hrole) (hhead u rfl)
      | closer =>
          exact ⟨.close piece ⟨u, hrole⟩, left, by simp [hinput, units], nofun⟩
      | comma =>
          obtain ⟨t, rest, heq, hrest⟩ := exists_begins left
          exact ⟨.comma piece ⟨u, hrole⟩ t, rest, by simp [hinput, units, heq], hrest⟩
      | quote =>
          obtain ⟨inner, quoted, rfl, hquoted⟩ := exists_inner (A := A) left
          cases hquoted with
          | closing quote later =>
              obtain ⟨t, rest, heq, hrest⟩ := exists_begins later
              exact ⟨.quoted piece ⟨⟨u, hrole⟩, inner⟩ quote t, rest,
                by simp [hinput, units, QuotedPart.units, heq], hrest⟩
          | cut unfinished =>
              exact ⟨.cut piece ⟨⟨u, hrole⟩, inner⟩ unfinished, [],
                by simp [hinput, units, QuotedPart.units], fun _ => rfl⟩
  termination_by input.length
  decreasing_by all_goals simp [hinput]; omega

/-- The first piece. -/
def piece : ListText A → Piece A
  | finish piece | close piece _ | comma piece _ _ | quoted piece _ _ _ | cut piece _ _ => piece

/-- What follows the first piece in a text that goes on with `rest` after the list. -/
def afterPiece (rest : List α) : ListText A → List α
  | finish _ => rest
  | close _ closer => closer.val :: rest
  | comma _ mark later => mark.val :: (later.units ++ rest)
  | quoted _ part closing later => part.units ++ closing.val :: (later.units ++ rest)
  | cut _ part unfinished => part.units ++ (unfinished.toList.map (·.val) ++ rest)

/-- What ends the first piece. -/
def stop? : ListText A → Option Role
  | finish _ => none
  | close _ _ => some .closer
  | comma _ _ _ => some .comma
  | quoted _ _ _ _ | cut _ _ _ => some .quote

theorem units_append (t : ListText A) (rest : List α) :
    t.units ++ rest = t.piece.units ++ t.afterPiece rest := by
  cases t <;> simp [units, piece, afterPiece]

theorem role_head?_afterPiece {t : ListText A} {rest : List α}
    (h : t.isClosed = false → rest = []) :
    (t.afterPiece rest).head?.map A.role = t.stop? := by
  cases t with
  | finish piece =>
      rw [h rfl]
      rfl
  | close piece mark | comma piece mark later => exact congrArg some mark.2
  | quoted piece part closing later | cut piece part unfinished =>
      exact congrArg some part.opening.2

theorem not_inPiece_head?_afterPiece {t : ListText A} {rest : List α}
    (h : t.isClosed = false → rest = []) :
    ∀ u ∈ (t.afterPiece rest).head?, ¬A.InPiece u := by
  intro u hu
  have hrole := role_head?_afterPiece h
  rw [Option.mem_def.mp hu] at hrole
  have hstop : t.stop? ≠ some .entry ∧ t.stop? ≠ some .stray := by
    cases t <;> simp [stop?]
  rintro (hu | hu)
  · exact hstop.1 (hrole.symm.trans (congrArg some hu))
  · exact hstop.2 (hrole.symm.trans (congrArg some hu))

theorem piece_eq_of_append_eq {t t' : ListText A} {rest rest' : List α}
    (heq : t.units ++ rest = t'.units ++ rest') (hrest : t.isClosed = false → rest = [])
    (hrest' : t'.isClosed = false → rest' = []) :
    t.piece = t'.piece ∧ t.afterPiece rest = t'.afterPiece rest' ∧ t.stop? = t'.stop? := by
  rw [units_append, units_append] at heq
  obtain ⟨hpiece, hafter⟩ := Piece.eq_of_append_eq heq (not_inPiece_head?_afterPiece hrest)
    (not_inPiece_head?_afterPiece hrest')
  refine ⟨hpiece, hafter, ?_⟩
  rw [← role_head?_afterPiece hrest, hafter, role_head?_afterPiece hrest']

/-- The induction is on one list. What ends its first piece ends that of the other. -/
theorem eq_of_append_eq {t t' : ListText A} {rest rest' : List α}
    (heq : t.units ++ rest = t'.units ++ rest') (hrest : t.isClosed = false → rest = [])
    (hrest' : t'.isClosed = false → rest' = []) : t = t' ∧ rest = rest' := by
  induction t generalizing t' with
  | finish piece =>
      obtain ⟨hpiece, hafter, hstop⟩ := piece_eq_of_append_eq heq hrest hrest'
      cases t' with
      | finish piece' =>
          cases hpiece
          exact ⟨rfl, hafter⟩
      | _ => cases hstop
  | close piece closer =>
      obtain ⟨hpiece, hafter, hstop⟩ := piece_eq_of_append_eq heq hrest hrest'
      cases t' with
      | close piece' closer' =>
          cases hpiece
          obtain ⟨hcloser, hleft⟩ := List.cons.inj hafter
          cases Subtype.ext hcloser
          exact ⟨rfl, hleft⟩
      | _ => cases hstop
  | comma piece mark later ih =>
      obtain ⟨hpiece, hafter, hstop⟩ := piece_eq_of_append_eq heq hrest hrest'
      cases t' with
      | comma piece' mark' later' =>
          cases hpiece
          obtain ⟨hmark, hlater⟩ := List.cons.inj hafter
          cases Subtype.ext hmark
          obtain ⟨rfl, hleft⟩ := ih hlater hrest hrest'
          exact ⟨rfl, hleft⟩
      | _ => cases hstop
  | quoted piece part closing later ih =>
      obtain ⟨hpiece, hafter, hstop⟩ := piece_eq_of_append_eq heq hrest hrest'
      cases t' with
      | quoted piece' part' closing' later' =>
          cases hpiece
          obtain ⟨rfl, hquoted⟩ := QuotedPart.eq_of_append_eq hafter (.closing closing _)
            (.closing closing' _)
          obtain ⟨hclosing, hlater⟩ := List.cons.inj hquoted
          cases Subtype.ext hclosing
          obtain ⟨rfl, hleft⟩ := ih hlater hrest hrest'
          exact ⟨rfl, hleft⟩
      | cut piece' part' unfinished' =>
          cases hrest' rfl
          rw [afterPiece, afterPiece, List.append_nil] at hafter
          obtain ⟨-, hquoted⟩ := QuotedPart.eq_of_append_eq hafter (.closing closing _)
            (.cut unfinished')
          exact absurd hquoted (closing_ne_unfinished closing _ unfinished')
      | _ => cases hstop
  | cut piece part unfinished =>
      obtain ⟨hpiece, hafter, hstop⟩ := piece_eq_of_append_eq heq hrest hrest'
      cases hrest rfl
      rw [afterPiece, List.append_nil] at hafter
      cases t' with
      | cut piece' part' unfinished' =>
          cases hpiece
          cases hrest' rfl
          rw [afterPiece, List.append_nil] at hafter
          obtain ⟨rfl, hquoted⟩ := QuotedPart.eq_of_append_eq hafter (.cut unfinished)
            (.cut unfinished')
          cases unfinished_injective hquoted
          exact ⟨rfl, rfl⟩
      | quoted piece' part' closing' later' =>
          obtain ⟨-, hquoted⟩ := QuotedPart.eq_of_append_eq hafter (.cut unfinished)
            (.closing closing' _)
          exact absurd hquoted.symm (closing_ne_unfinished closing' _ unfinished)
      | _ => cases hstop

theorem Begins.unique {t t' : ListText A} {input rest rest' : List α} (h : t.Begins input rest)
    (h' : t'.Begins input rest') : t = t' ∧ rest = rest' :=
  eq_of_append_eq (h.eq_append.symm.trans h'.eq_append) h.rest_eq_nil h'.rest_eq_nil

end ListText

end

/-! ## Reading a list -/

namespace Scanner

theorem leaving_append (passed octets left : List UInt8) :
    (⟨passed, octets ++ left⟩ : Scanner).leaving left = ⟨octets.reverse ++ passed, left⟩ := by
  simp [leaving, advance]

theorem list_of_begins {t : ListText characters} {input rest : List Char}
    (h : t.Begins input rest) (passed : List UInt8) :
    list ⟨passed, encodeAll input⟩ =
      (t.tokens, ⟨(encodeAll t.units).reverse ++ passed, encodeAll rest⟩) := by
  have hread := readList_encodeAll [] input
  rw [encodeAll_nil, ListText.readList_of_begins h] at hread
  rw [list, hread, h.eq_append, encodeAll_append]
  exact Prod.ext rfl (leaving_append passed _ _)

/-- A text begins with one list and with no other. Reading it gives the tokens of that list, and the
scanner then stands after the list. Strays can be taken from the text, all of them or some, and the
tokens stay. -/
theorem list_reading (passed : List UInt8) (text : String) :
    ∃ (t : ListText characters) (rest : List Char), t.Begins text.toList rest ∧
      (∀ t' rest', t'.Begins text.toList rest' → t' = t ∧ rest' = rest) ∧
      list ⟨passed, encode text⟩ =
        (t.tokens, ⟨(encodeAll t.units).reverse ++ passed, encodeAll rest⟩) ∧
      list ⟨passed, encodeAll (t.withoutStrays.units ++ rest)⟩ =
        (t.tokens, ⟨(encodeAll t.withoutStrays.units).reverse ++ passed, encodeAll rest⟩) ∧
      ∀ (text' : String) (t' : ListText characters) (rest' : List Char),
        t'.Begins text'.toList rest' → t'.withoutStrays = t.withoutStrays →
          (list ⟨passed, encode text'⟩).1 = t.tokens := by
  obtain ⟨t, rest, h⟩ := ListText.exists_begins (A := characters) text.toList
  refine ⟨t, rest, h, fun t' rest' h' => h'.unique h, list_of_begins h passed, ?_, ?_⟩
  · rw [list_of_begins h.withoutStrays, t.tokens_withoutStrays]
  · intro text' t' rest' h' hsame
    have hlist := list_of_begins h' passed
    rw [ListText.tokens_eq_of_withoutStrays_eq hsame] at hlist
    exact congrArg Prod.fst hlist

-- A bracket within quotes does not close the list, and either bracket does outside them.
example : list ⟨[], encode "a=b(,\"]\\\"\" x)|c"⟩ =
    ([.bare "ab", .quoted "]\"", .bare " x"],
      ⟨(encode "a=b(,\"]\\\"\" x)").reverse, encode "|c"⟩) := by decide +kernel

end Scanner

end Redaction.Instruction
