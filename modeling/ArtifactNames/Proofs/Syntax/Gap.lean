import ArtifactNames.Proofs.Syntax.Frame

/-! The layout between tokens can be replaced, as a whole, by any other layout, and the scanner
still finds the same tokens at other offsets (`scan_relayout`). -/

namespace ArtifactNames

open Syntax Text

namespace Syntax

def Token.stop (t : Token) : Nat := t.start + t.text.length

/-- Text the scanner skips: blank code points and comments. Each comment ends with a line feed,
but for one at the very end of a layout that may end the text (`last`). -/
inductive Layout : Bool → List Nat → Prop
  | nil {last : Bool} : Layout last []
  | blank {last : Bool} {c : Nat} {g : List Nat} : isBlankSpace c = true → Layout last g →
      Layout last (c :: g)
  | comment {last : Bool} {body g : List Nat} : 0x0A ∉ body → Layout last g →
      Layout last (0x23 :: body ++ 0x0A :: g)
  | final {body : List Nat} : 0x0A ∉ body → Layout true (0x23 :: body)

/-- Where the layout after the first `i` tokens begins: where token `i - 1` ends, or at `first`
before the first token. -/
def layoutStart : List Token → Nat → Nat → Nat
  | _, first, 0 => first
  | [], first, _ + 1 => first
  | t :: toks, _, i + 1 => layoutStart toks t.stop i

/-- Where the layout after the first `i` tokens ends: where token `i` starts, or at `last` after
the last token. -/
def layoutEnd : List Token → Nat → Nat → Nat
  | [], last, _ => last
  | t :: _, _, 0 => t.start
  | _ :: toks, last, i + 1 => layoutEnd toks last i

theorem stringRest_bounds {rest : List Nat} {n : Nat} (h : stringRest rest = some n) :
    1 ≤ n ∧ n ≤ rest.length := by
  induction rest using stringRest.induct generalizing n with
  | case1 => simp [stringRest] at h
  | case2 => simp_all [stringRest]
  | case3 c rest escaped ih =>
    simp only [stringRest, escaped, ↓reduceIte, Option.map_eq_some_iff] at h
    obtain ⟨m, found, rfl⟩ := h
    have := ih found
    simp only [List.length_cons]
    omega
  | case4 c rest plain =>
    simp [stringRest, plain] at h
  | case5 c rest notQuote notEscape ih =>
    rw [stringRest.eq_4 _ _ notQuote notEscape, Option.map_eq_some_iff] at h
    obtain ⟨m, found, rfl⟩ := h
    have := ih found
    simp only [List.length_cons]
    omega

theorem stringRest_append : ∀ {text : List Nat} (rest rest' : List Nat),
    stringRest (text ++ rest) = some text.length → stringRest (text ++ rest') = some text.length
  | [], rest, _, h => absurd (stringRest_bounds h).1 (by simp)
  | x :: text, rest, rest', h => by
    by_cases quote : x = 0x22
    · subst quote
      rw [List.cons_append, stringRest.eq_2] at h ⊢
      exact h
    by_cases escape : x = 0x5C
    · subst escape
      cases text with
      | nil =>
        -- a lone backslash is no whole string
        cases rest with
        | nil => simp [stringRest] at h
        | cons c r =>
          rw [List.cons_append, List.nil_append, stringRest.eq_3] at h
          split at h
          · obtain ⟨m, -, same⟩ := Option.map_eq_some_iff.mp h
            simp at same
          · cases h
      | cons y ys =>
        rw [List.cons_append, List.cons_append, stringRest.eq_3] at h ⊢
        split at h
        · rename_i escaped
          obtain ⟨m, found, same⟩ := Option.map_eq_some_iff.mp h
          obtain rfl : m = ys.length := by simp at same; omega
          simp [escaped, stringRest_append rest rest' found]
        · cases h
    · have plain : ∀ c r, x = 0x5C → text ++ rest = c :: r → False := fun _ _ e _ => escape e
      have plain' : ∀ c r, x = 0x5C → text ++ rest' = c :: r → False := fun _ _ e _ => escape e
      rw [List.cons_append, stringRest.eq_4 _ _ quote plain] at h
      rw [List.cons_append, stringRest.eq_4 _ _ quote plain']
      obtain ⟨m, found, same⟩ := Option.map_eq_some_iff.mp h
      obtain rfl : m = text.length := by simp at same; omega
      simp [stringRest_append rest rest' found]
termination_by text => text.length

theorem lexeme_le {c : Nat} {rest : List Nat} {kind : TokenKind} {n : Nat}
    (h : lexeme c rest = some (kind, n)) : n ≤ rest.length := by
  unfold lexeme at h
  repeat' split at h
  all_goals try simp only [Option.some.injEq, Prod.mk.injEq, Option.map_eq_some_iff] at h
  case isTrue =>
    obtain ⟨m, found, -, rfl⟩ := h
    exact (stringRest_bounds found).2
  case isFalse.isTrue.isTrue scope =>
    -- `::` takes the second colon
    obtain ⟨-, rfl⟩ := h
    cases rest <;> simp_all
  case h_2.isTrue | h_2.isFalse.isFalse.isTrue =>
    obtain ⟨-, rfl⟩ := h
    exact (List.takeWhile_prefix _).length_le
  all_goals first | (obtain ⟨-, rfl⟩ := h; exact Nat.zero_le _) | cases h

theorem takeWhile_length_append {α : Type} {p : α → Bool} {text rest : List α} :
    ((text ++ rest).takeWhile p).length = text.length ↔
      text.all p = true ∧ ∀ x ∈ rest.head?, p x = false := by
  induction text with
  | nil =>
    cases rest with
    | nil => simp
    | cons x xs => by_cases hp : p x <;> simp [hp]
  | cons y ys ih => by_cases hp : p y <;> simp [hp, ih]

theorem getD_map_head_eq_false {q : Nat → Bool} {l : List Nat} :
    (l.head?.map q).getD false = false ↔ ∀ x ∈ l.head?, q x = false := by
  cases l <;> simp

theorem separator_stops {x : Nat} (h : isBlankSpace x = true ∨ x = 0x23) :
    isWordTail x = false ∧ isNumberTail x = false ∧ x ≠ 0x3A := by
  rcases h with h | rfl
  · simp only [isBlankSpace, Bool.or_eq_true, beq_iff_eq] at h
    rcases h with (((h | h) | h) | h) | h <;> subst h <;> decide
  · decide

theorem lexeme_congr {c : Nat} {text rest rest' : List Nat} {kind : TokenKind}
    (found : lexeme c (text ++ rest) = some (kind, text.length))
    (next : ∀ x ∈ rest'.head?, x ∈ rest.head? ∨ isBlankSpace x = true ∨ x = 0x23) :
    lexeme c (text ++ rest') = some (kind, text.length) := by
  -- a test that the code point after the token fails, and every separator fails, fails after it
  have follows : ∀ q : Nat → Bool, (∀ x, isBlankSpace x = true ∨ x = 0x23 → q x = false) →
      (∀ x ∈ rest.head?, q x = false) → ∀ x ∈ rest'.head?, q x = false := by
    intro q sep old x mem
    rcases next x mem with same | other
    · exact old x same
    · exact sep x other
  -- a run of a class's code points takes the whole text before and after the change
  have run : ∀ q : Nat → Bool, (∀ x, isBlankSpace x = true ∨ x = 0x23 → q x = false) →
      ((text ++ rest).takeWhile q).length = text.length →
      ((text ++ rest').takeWhile q).length = text.length := by
    intro q sep h
    rw [takeWhile_length_append] at h ⊢
    exact ⟨h.1, follows q sep h.2⟩
  unfold lexeme at found ⊢
  by_cases quote : c = 0x22
  · subst quote
    simp only [beq_self_eq_true, ↓reduceIte, Option.map_eq_some_iff, Prod.mk.injEq] at found ⊢
    obtain ⟨m, read, rfl, rfl⟩ := found
    exact ⟨_, stringRest_append rest rest' read, rfl, rfl⟩
  rw [if_neg (by simpa using quote)] at found ⊢
  by_cases colon : c = 0x3A
  · subst colon
    simp only [beq_self_eq_true, ↓reduceIte] at found ⊢
    split at found
    · -- `::`: the text is the second colon
      rename_i second
      simp only [Option.some.injEq, Prod.mk.injEq] at found
      obtain ⟨rfl, one⟩ := found
      obtain ⟨y, rfl⟩ : ∃ y, text = [y] := List.length_eq_one_iff.mp one.symm
      simp only [List.singleton_append, List.head?_cons] at second
      simp [second]
    · rename_i single
      simp only [Option.some.injEq, Prod.mk.injEq] at found
      obtain ⟨rfl, none⟩ := found
      obtain rfl : text = [] := List.eq_nil_of_length_eq_zero none.symm
      have stop := follows (· == 0x3A) (fun x sep => by simpa using (separator_stops sep).2.2)
        (fun x mem => by
          rw [List.nil_append, Option.mem_def.mp mem] at single
          simpa using single)
      rw [if_neg]
      · simp
      · intro same
        simp only [List.nil_append, beq_iff_eq] at same
        simpa using stop 0x3A same
  rw [if_neg (by simpa using colon)] at found ⊢
  cases mark : punctOf c with
  | some p =>
    simp only [mark] at found ⊢
    exact found
  | none =>
    simp only [mark] at found ⊢
    by_cases digit : isDecimal c = true
    · simp only [digit, ↓reduceIte, Option.some.injEq, Prod.mk.injEq] at found ⊢
      exact ⟨found.1, run isNumberTail (fun x sep => (separator_stops sep).2.1) found.2⟩
    simp only [digit, Bool.false_eq_true, ↓reduceIte] at found ⊢
    split at found
    · -- the blank: a `_` that no word character follows
      rename_i lone
      simp only [Option.some.injEq, Prod.mk.injEq] at found
      obtain ⟨rfl, none⟩ := found
      obtain rfl : text = [] := List.eq_nil_of_length_eq_zero none.symm
      simp only [Bool.and_eq_true, beq_iff_eq, Bool.not_eq_true', List.nil_append,
        getD_map_head_eq_false] at lone
      have stop := follows isWordTail (fun x sep => (separator_stops sep).1) lone.2
      rw [if_pos (by simp [lone.1, getD_map_head_eq_false.mpr stop])]
      rfl
    · rename_i notLone
      split at found
      · -- a word: its tail is the run of word code points
        simp only [Option.some.injEq, Prod.mk.injEq] at found
        obtain ⟨rfl, taken⟩ := found
        have tails := takeWhile_length_append.mp taken
        have notLone' : (c == 0x5F && !((text ++ rest').head?.map isWordTail).getD false) = false := by
          cases text with
          | cons y ys =>
            simp only [List.all_cons, Bool.and_eq_true] at tails
            simp [tails.1.1]
          | nil =>
            have stop := follows isWordTail (fun x sep => (separator_stops sep).1) tails.2
            simp only [List.nil_append, getD_map_head_eq_false.mpr tails.2, getD_map_head_eq_false.mpr stop,
              Bool.not_false, Bool.and_true] at notLone ⊢
            simpa using notLone
        rw [if_neg (by simp only [notLone', Bool.false_eq_true, not_false_eq_true]),
          if_pos (by assumption)]
        simp [run isWordTail (fun x sep => (separator_stops sep).1) taken]
      · cases found

theorem tokensFrom_skipComment {body rest : List Nat} (pos : Nat) (plain : 0x0A ∉ body)
    (ends : ∀ x ∈ rest.head?, x = 0x0A) :
    tokensFrom pos (0x23 :: body ++ rest) = tokensFrom (pos + 1 + body.length) rest := by
  have upTo : (body ++ rest).takeWhile (· != 0x0A) = body := by
    refine takeWhile_append_of_all (List.all_eq_true.mpr fun x mem => ?_) (fun x first => ?_)
    · simpa using ne_of_mem_of_not_mem mem plain
    · simp [ends x first]
  rw [List.cons_append, tokensFrom_comment, upTo, List.drop_left]

theorem tokensFrom_token {c : Nat} {text rest : List Nat} {kind : TokenKind} (pos : Nat)
    (blank : isBlankSpace c = false) (hash : c ≠ 0x23)
    (found : lexeme c (text ++ rest) = some (kind, text.length)) :
    tokensFrom pos (c :: text ++ rest) =
      ⟨kind, pos, c :: text⟩ :: tokensFrom (pos + 1 + text.length) rest := by
  rw [List.cons_append, tokensFrom_lexeme pos blank hash found, List.take_left, List.drop_left]

theorem tokensFrom_induction {motive : Nat → List Nat → Prop}
    (nil : ∀ pos, motive pos [])
    (blank : ∀ pos c rest, isBlankSpace c = true → motive (pos + 1) rest → motive pos (c :: rest))
    (comment : ∀ pos body rest, 0x0A ∉ body → (∀ x ∈ rest.head?, x = 0x0A) →
      motive (pos + 1 + body.length) rest → motive pos (0x23 :: body ++ rest))
    (token : ∀ pos c text rest kind, isBlankSpace c = false → c ≠ 0x23 →
      lexeme c (text ++ rest) = some (kind, text.length) →
      motive (pos + 1 + text.length) rest → motive pos (c :: text ++ rest))
    (stuck : ∀ pos c rest, isBlankSpace c = false → c ≠ 0x23 → lexeme c rest = none →
      motive pos (c :: rest)) :
    ∀ pos cs, motive pos cs
  | pos, [] => nil pos
  | pos, c :: rest => by
    by_cases isBlank : isBlankSpace c = true
    · exact blank pos c rest isBlank (tokensFrom_induction nil blank comment token stuck (pos + 1) rest)
    replace isBlank : isBlankSpace c = false := by simpa using isBlank
    by_cases isHash : c = 0x23
    · subst isHash
      -- the comment runs up to the first line feed
      obtain ⟨body, after, split, plain, ends⟩ : ∃ body after, rest = body ++ after ∧
          0x0A ∉ body ∧ ∀ x ∈ after.head?, x = 0x0A := by
        refine ⟨rest.takeWhile (· != 0x0A), rest.dropWhile (· != 0x0A),
          List.takeWhile_append_dropWhile.symm, fun mem => ?_, fun x first => ?_⟩
        · simpa using List.all_eq_true.mp List.all_takeWhile _ mem
        · have stop := List.head?_dropWhile_not (· != 0x0A) rest
          rw [Option.mem_def.mp first] at stop
          simpa using stop
      rw [split]
      exact comment pos body after plain ends
        (tokensFrom_induction nil blank comment token stuck (pos + 1 + body.length) after)
    cases found : lexeme c rest with
    | none => exact stuck pos c rest isBlank isHash found
    | some read =>
      obtain ⟨kind, n⟩ := read
      obtain ⟨text, after, split, rfl⟩ : ∃ text after, rest = text ++ after ∧ text.length = n :=
        ⟨rest.take n, rest.drop n, (List.take_append_drop n rest).symm,
          by simpa using Nat.min_eq_left (lexeme_le found)⟩
      rw [split] at found ⊢
      exact token pos c text after kind isBlank isHash found
        (tokensFrom_induction nil blank comment token stuck (pos + 1 + text.length) after)
termination_by _ cs => cs.length
decreasing_by
  all_goals simp only [List.length_cons]
  all_goals (try rw [split, List.length_append]); omega

theorem tokensFrom_layout {last : Bool} {g : List Nat} (layout : Layout last g) (pos : Nat)
    (rest : List Nat) (closed : last = false ∨ rest = []) :
    tokensFrom pos (g ++ rest) = tokensFrom (pos + g.length) rest := by
  induction layout generalizing pos with
  | nil => simp
  | blank isBlank _ ih =>
    rw [List.cons_append, tokensFrom_blank _ _ isBlank, ih _ closed, List.length_cons]
    congr 1
    omega
  | @comment _ body g plain _ ih =>
    have skip := @tokensFrom_skipComment _ (0x0A :: g ++ rest) pos plain (by simp)
    simp only [List.cons_append, List.append_assoc] at skip ⊢
    rw [skip, tokensFrom_blank _ _ (by decide), ih _ closed]
    simp only [List.length_cons, List.length_append]
    congr 1
    omega
  | final plain =>
    obtain rfl : rest = [] := by simpa using closed
    have skip := @tokensFrom_skipComment _ [] pos plain (by simp)
    simp only [List.append_nil] at skip ⊢
    rw [skip]
    simp

theorem tokensFrom_agree (pos : Nat) (cs : List Nat) (q : Nat) :
    Agree (tokensFrom pos cs) (tokensFrom q cs) := by
  induction pos, cs using tokensFrom_induction generalizing q with
  | nil => simp [Agree]
  | blank pos c rest isBlank ih =>
    rw [tokensFrom_blank _ _ isBlank, tokensFrom_blank _ _ isBlank]
    exact ih (q + 1)
  | comment pos body rest plain ends ih =>
    rw [tokensFrom_skipComment _ plain ends, tokensFrom_skipComment _ plain ends]
    exact ih _
  | token pos c text rest kind isBlank isHash found ih =>
    rw [tokensFrom_token _ isBlank isHash found, tokensFrom_token _ isBlank isHash found]
    exact (ih _).cons q
  | stuck pos c rest isBlank isHash missing =>
    rw [tokensFrom_unscannable _ isBlank isHash missing, tokensFrom_unscannable _ isBlank isHash missing]
    rfl

theorem tokensFrom_bounds (pos : Nat) (cs : List Nat) :
    ∀ t ∈ tokensFrom pos cs, pos ≤ t.start ∧ t.start < t.stop ∧ t.stop ≤ pos + cs.length := by
  induction pos, cs using tokensFrom_induction with
  | nil => simp
  | blank pos c rest isBlank ih =>
    intro t mem
    rw [tokensFrom_blank _ _ isBlank] at mem
    have := ih t mem
    simp only [List.length_cons]
    omega
  | comment pos body rest plain ends ih =>
    intro t mem
    rw [tokensFrom_skipComment _ plain ends] at mem
    have := ih t mem
    simp only [List.cons_append, List.length_cons, List.length_append]
    omega
  | token pos c text rest kind isBlank isHash found ih =>
    intro t mem
    rw [tokensFrom_token _ isBlank isHash found, List.mem_cons] at mem
    simp only [List.cons_append, List.length_cons, List.length_append]
    rcases mem with rfl | mem
    · simp only [Token.stop, List.length_cons]
      omega
    · have := ih t mem
      omega
  | stuck pos c rest isBlank isHash missing =>
    intro t mem
    rw [tokensFrom_unscannable _ isBlank isHash missing, List.mem_singleton] at mem
    subst mem
    simp [Token.stop]

theorem tokensFrom_first (pos : Nat) (cs : List Nat) :
    ∀ t toks, tokensFrom pos cs = t :: toks →
      tokensFrom pos cs = tokensFrom t.start (cs.drop (t.start - pos)) := by
  induction pos, cs using tokensFrom_induction with
  | nil => simp
  | blank pos c rest isBlank ih =>
    intro t toks first
    rw [tokensFrom_blank _ _ isBlank] at first ⊢
    obtain ⟨k, hk⟩ : ∃ k, t.start = pos + 1 + k :=
      ⟨t.start - (pos + 1), by have := tokensFrom_bounds _ _ t (first ▸ List.mem_cons_self); omega⟩
    rw [ih t toks first, hk, show pos + 1 + k - pos = k + 1 by omega, List.drop_succ_cons,
      show pos + 1 + k - (pos + 1) = k by omega]
  | comment pos body rest plain ends ih =>
    intro t toks first
    rw [tokensFrom_skipComment _ plain ends] at first ⊢
    obtain ⟨k, hk⟩ : ∃ k, t.start = pos + 1 + body.length + k :=
      ⟨t.start - (pos + 1 + body.length),
        by have := tokensFrom_bounds _ _ t (first ▸ List.mem_cons_self); omega⟩
    have skipped : pos + 1 + body.length + k - pos = (0x23 :: body).length + k := by
      simp only [List.length_cons]
      omega
    rw [ih t toks first, hk, skipped, List.drop_append,
      List.drop_eq_nil_of_le (Nat.le_add_right _ _), List.nil_append]
    congr 2
    omega
  | token pos c text rest kind isBlank isHash found =>
    intro t toks first
    rw [tokensFrom_token _ isBlank isHash found, List.cons.injEq] at first
    rw [← first.1]
    simp
  | stuck pos c rest isBlank isHash missing =>
    intro t toks first
    rw [tokensFrom_unscannable _ isBlank isHash missing, List.cons.injEq] at first
    rw [← first.1]
    simp

theorem layoutStart_mem : ∀ {toks : List Token} {first i : Nat}, 0 < i → i ≤ toks.length →
    ∃ t ∈ toks, layoutStart toks first i = t.stop
  | _, _, 0, positive, _ => absurd positive (Nat.lt_irrefl 0)
  | [], _, _ + 1, _, within => absurd within (by simp)
  | t :: _, _, 1, _, _ => ⟨t, List.mem_cons_self, by simp [layoutStart]⟩
  | _ :: toks, _, i + 2, _, within => by
    obtain ⟨t, mem, eq⟩ := @layoutStart_mem toks _ (i + 1) (by omega)
      (by simpa using within)
    exact ⟨t, List.mem_cons_of_mem _ mem, eq⟩

theorem layoutEnd_mem : ∀ {toks : List Token} {last i : Nat},
    layoutEnd toks last i = last ∨ ∃ t ∈ toks, layoutEnd toks last i = t.start
  | [], _, _ => .inl rfl
  | t :: _, _, 0 => .inr ⟨t, List.mem_cons_self, rfl⟩
  | _ :: toks, _, i + 1 => by
    rcases @layoutEnd_mem toks _ i with edge | ⟨t, mem, eq⟩
    · exact .inl edge
    · exact .inr ⟨t, List.mem_cons_of_mem _ mem, eq⟩

theorem Layout.head {last : Bool} {g : List Nat} (layout : Layout last g) :
    ∀ x ∈ g.head?, isBlankSpace x = true ∨ x = 0x23 := by
  cases layout <;> simp_all

theorem Layout.getLast {last : Bool} {g : List Nat} (layout : Layout last g) (closed : last = false) :
    ∀ x ∈ g.getLast?, isBlankSpace x = true := by
  induction layout with
  | nil => simp
  | @blank _ c g isBlank _ ih =>
    cases g with
    | nil => simpa using isBlank
    | cons y ys => simpa using ih closed
  | @comment _ body g _ _ ih =>
    rw [List.getLast?_append]
    cases g with
    | nil => simp [isBlankSpace]
    | cons y ys => simpa using ih closed
  | final => cases closed

theorem layoutEnd_length : ∀ (toks : List Token) (last : Nat), layoutEnd toks last toks.length = last
  | [], _ => rfl
  | _ :: toks, last => layoutEnd_length toks last

theorem splice_append (pre rest g : List Nat) (a b : Nat) :
    (pre ++ rest).take (pre.length + a) ++ g ++ (pre ++ rest).drop (pre.length + b) =
      pre ++ (rest.take a ++ g ++ rest.drop b) := by
  simp [List.take_append, List.drop_append, List.take_of_length_le, List.drop_eq_nil_of_le]

theorem tokensFrom_relayout_first {pos : Nat} {cs g : List Nat} (layout : Layout true g)
    (closed : tokensFrom pos cs ≠ [] → Layout false g) :
    Agree (tokensFrom pos cs)
      (tokensFrom pos (g ++ cs.drop (layoutEnd (tokensFrom pos cs) (pos + cs.length) 0 - pos))) := by
  cases toks : tokensFrom pos cs with
  | nil =>
    rw [layoutEnd, Nat.add_sub_cancel_left, List.drop_length, tokensFrom_layout layout _ _ (.inr rfl)]
    simp [Agree]
  | cons t rest =>
    rw [layoutEnd, tokensFrom_layout (closed (by simp [toks])) _ _ (.inl rfl),
      ← toks, tokensFrom_first pos cs t rest toks]
    exact tokensFrom_agree _ _ _

theorem splice_after (pre rest g : List Nat) {toks : List Token} (first pos mid : Nat) {j : Nat}
    (skip : mid = pos + pre.length)
    (positions : ∀ t ∈ toks, mid ≤ t.start ∧ t.start < t.stop ∧ t.stop ≤ mid + rest.length)
    (within : j + 1 ≤ toks.length) :
    (pre ++ rest).take (layoutStart toks first (j + 1) - pos) ++ g ++
        (pre ++ rest).drop (layoutEnd toks (pos + (pre ++ rest).length) (j + 1) - pos) =
      pre ++ (rest.take (layoutStart toks mid (j + 1) - mid) ++ g ++
        rest.drop (layoutEnd toks (mid + rest.length) (j + 1) - mid)) ∧
    (rest.take (layoutStart toks mid (j + 1) - mid) ++ g ++
        rest.drop (layoutEnd toks (mid + rest.length) (j + 1) - mid)).head? = rest.head? := by
  obtain ⟨t, others, rfl⟩ := List.exists_cons_of_ne_nil (List.ne_nil_of_length_pos (l := toks) (by omega))
  have anyFirst : layoutStart (t :: others) first (j + 1) = layoutStart (t :: others) mid (j + 1) := rfl
  have last : pos + (pre ++ rest).length = mid + rest.length := by simp only [List.length_append]; omega
  obtain ⟨u, mem, start⟩ := @layoutStart_mem _ mid (j + 1) (by omega) within
  have inside := positions u mem
  have before : mid ≤ layoutEnd (t :: others) (mid + rest.length) (j + 1) := by
    rcases @layoutEnd_mem (t :: others) (mid + rest.length) (j + 1) with
      edge | ⟨v, memV, edge⟩
    · omega
    · have := positions v memV
      omega
  rw [anyFirst, last]
  constructor
  · rw [show layoutStart (t :: others) mid (j + 1) - pos =
        pre.length + (layoutStart (t :: others) mid (j + 1) - mid) by omega,
      show layoutEnd (t :: others) (mid + rest.length) (j + 1) - pos =
        pre.length + (layoutEnd (t :: others) (mid + rest.length) (j + 1) - mid) by omega,
      splice_append]
  · -- the part kept of the rest is not empty
    obtain ⟨x, xs, rfl⟩ := List.exists_cons_of_ne_nil (show rest ≠ [] by
      rintro rfl
      simp only [List.length_nil, Nat.add_zero] at inside
      omega)
    rw [show layoutStart (t :: others) mid (j + 1) - mid =
      (layoutStart (t :: others) mid (j + 1) - mid - 1) + 1 by omega, List.take_succ_cons]
    rfl

theorem splice_first (pre : List Nat) {rest g : List Nat} {toks : List Token} (pos : Nat) {mid : Nat}
    (skip : mid = pos + pre.length)
    (positions : ∀ t ∈ toks, mid ≤ t.start ∧ t.start < t.stop ∧ t.stop ≤ mid + rest.length) :
    (pre ++ rest).take (mid - pos) ++ g ++
        (pre ++ rest).drop (layoutEnd toks (pos + (pre ++ rest).length) 0 - pos) =
      pre ++ (g ++ rest.drop (layoutEnd toks (mid + rest.length) 0 - mid)) := by
  have last : pos + (pre ++ rest).length = mid + rest.length := by
    simp only [List.length_append]
    omega
  have before : mid ≤ layoutEnd toks (mid + rest.length) 0 := by
    rcases @layoutEnd_mem toks (mid + rest.length) 0 with edge | ⟨v, memV, edge⟩
    · omega
    · have := positions v memV
      omega
  have spliced := splice_append pre rest g 0 (layoutEnd toks (mid + rest.length) 0 - mid)
  rw [Nat.add_zero, List.take_zero, List.nil_append] at spliced
  rw [last, show mid - pos = pre.length by omega,
    show layoutEnd toks (mid + rest.length) 0 - pos =
      pre.length + (layoutEnd toks (mid + rest.length) 0 - mid) by omega, spliced]

theorem tokensFrom_relayout_later (pos : Nat) (cs : List Nat) :
    ∀ (j : Nat) (g : List Nat), j + 1 ≤ (tokensFrom pos cs).length →
      (j + 1 = (tokensFrom pos cs).length → Scanned (tokensFrom pos cs)) →
      Layout true g → (j + 1 < (tokensFrom pos cs).length → Layout false g) → g ≠ [] →
      Agree (tokensFrom pos cs) (tokensFrom pos
        (cs.take (layoutStart (tokensFrom pos cs) pos (j + 1) - pos) ++ g ++
          cs.drop (layoutEnd (tokensFrom pos cs) (pos + cs.length) (j + 1) - pos))) := by
  induction pos, cs using tokensFrom_induction with
  | nil pos =>
    intro j g within
    simp at within
  | blank pos c rest isBlank ih =>
    intro j g within scanned layout closed filled
    rw [tokensFrom_blank _ _ isBlank] at within scanned closed ⊢
    obtain ⟨spliced, -⟩ := splice_after [c] rest g pos pos (pos + 1) (by simp) (tokensFrom_bounds _ _) within
    rw [show c :: rest = [c] ++ rest from rfl, spliced, List.singleton_append,
      tokensFrom_blank _ _ isBlank]
    exact ih j g within scanned layout closed filled
  | comment pos body rest plain ends ih =>
    intro j g within scanned layout closed filled
    rw [tokensFrom_skipComment _ plain ends] at within scanned closed ⊢
    obtain ⟨spliced, head⟩ := splice_after (0x23 :: body) rest g pos pos
      (pos + 1 + body.length) (by simp; omega)
      (tokensFrom_bounds _ _) within
    rw [spliced, tokensFrom_skipComment _ plain (by rw [head]; exact ends)]
    exact ih j g within scanned layout closed filled
  | token pos c text rest kind isBlank isHash found ih =>
    intro j g within scanned layout closed filled
    rw [tokensFrom_token _ isBlank isHash found] at within scanned closed ⊢
    have stop : pos + (c :: text).length = pos + 1 + text.length := by
      simp only [List.length_cons]
      omega
    cases j with
    | zero =>
      -- the layout right after this token: the token still stops where it did
      simp only [layoutStart, layoutEnd, Token.stop, stop]
      rw [splice_first (c :: text) pos (by simp; omega) (tokensFrom_bounds _ _),
        tokensFrom_token _ isBlank isHash (lexeme_congr found fun x first => ?_)]
      · refine (tokensFrom_relayout_first layout fun nonempty => closed ?_).cons pos
        simp only [List.length_cons]
        exact Nat.lt_add_of_pos_left (List.length_pos_iff.mpr nonempty)
      · -- what follows the token now starts with the new layout
        obtain ⟨y, ys, rfl⟩ := List.exists_cons_of_ne_nil filled
        simp only [List.cons_append, List.head?_cons, Option.mem_def, Option.some.injEq] at first
        subst first
        exact .inr (layout.head y rfl)
    | succ k =>
      simp only [layoutStart, layoutEnd, Token.stop]
      have within' : k + 1 ≤ (tokensFrom (pos + 1 + text.length) rest).length := by
        simpa using within
      obtain ⟨spliced, head⟩ := splice_after (c :: text) rest g
        (pos + (c :: text).length) pos (pos + 1 + text.length)
        (by simp; omega) (tokensFrom_bounds _ _) within'
      rw [spliced,
        tokensFrom_token _ isBlank isHash (lexeme_congr found fun x first => .inl (head ▸ first))]
      refine (ih k g within' (fun last => ?_) layout (fun short => closed ?_) filled).cons pos
      · exact (scanned_cons.mp (scanned (by simp [last]))).2
      · simp only [List.length_cons]
        omega
  | stuck pos c rest isBlank isHash missing =>
    intro j g within scanned
    rw [tokensFrom_unscannable _ isBlank isHash missing] at within scanned
    obtain rfl : j = 0 := by simpa using within
    simp [Scanned] at scanned

theorem scan_relayout (cs g : List Nat) (i : Nat) (within : i ≤ (scan cs).length)
    (scanned : i = (scan cs).length → Scanned (scan cs)) (layout : Layout true g)
    (closed : i < (scan cs).length → Layout false g) (filled : g ≠ []) :
    Agree (scan cs) (scan (cs.take (layoutStart (scan cs) 0 i) ++ g ++
      cs.drop (layoutEnd (scan cs) cs.length i))) := by
  simp only [scan_eq_tokensFrom] at within scanned closed ⊢
  cases i with
  | zero =>
    simpa [layoutStart] using
      tokensFrom_relayout_first layout fun nonempty => closed (List.length_pos_iff.mpr nonempty)
  | succ j => simpa using tokensFrom_relayout_later 0 cs j g within scanned layout closed filled

end Syntax

end ArtifactNames
