import Mathlib

/-!
# Forms

A form is a word, or a word as the head of further forms in parentheses. Words have no blanks and no
parentheses, so the text of a form tells where it ends and what its parts are (`Form.chars_unique`).
-/

namespace Lox

inductive Form where
  | word (text : String)
  | node (head : String) (parts : List Form)

namespace Form

def isMark (c : Char) : Bool := c = ' ' || c = '(' || c = ')'

def IsWord (text : String) : Prop := text.toList ≠ [] ∧ ∀ c ∈ text.toList, isMark c = false

mutual

def chars : Form → List Char
  | word text => text.toList
  | node head parts => '(' :: (head.toList ++ (charsAll parts ++ [')']))

def charsAll : List Form → List Char
  | [] => []
  | first :: rest => ' ' :: (first.chars ++ charsAll rest)

end

mutual

def Wordy : Form → Prop
  | word text => IsWord text
  | node head parts => IsWord head ∧ WordyAll parts

def WordyAll : List Form → Prop
  | [] => True
  | first :: rest => first.Wordy ∧ WordyAll rest

end

def Stops (rest : List Char) : Prop := ∀ c ∈ rest.head?, isMark c = true

variable {text text' : String} {rest rest' : List Char} {parts : List Form}

theorem stops_nil : Stops [] := by simp [Stops]

theorem stops_cons {c : Char} : Stops (c :: rest) ↔ isMark c = true := by simp [Stops]

theorem stops_charsAll (stops : Stops rest) : Stops (charsAll parts ++ rest) := by
  cases parts with
  | nil => exact stops
  | cons => exact stops_cons.mpr rfl

theorem takeWhile_word (isWord : IsWord text) (stops : Stops rest) :
    (text.toList ++ rest).takeWhile (!isMark ·) = text.toList := by
  have nothing : rest.takeWhile (!isMark ·) = [] := by
    cases rest with
    | nil => rfl
    | cons c rest => simp [stops_cons.mp stops]
  rw [List.takeWhile_append_of_pos (by simpa using isWord.2), nothing, List.append_nil]

theorem word_unique (isWord : IsWord text) (isWord' : IsWord text') (stops : Stops rest) (stops' : Stops rest')
    (same : text.toList ++ rest = text'.toList ++ rest') : text = text' ∧ rest = rest' := by
  have words := congrArg (List.takeWhile (!isMark ·)) same
  rw [takeWhile_word isWord stops, takeWhile_word isWord' stops'] at words
  exact ⟨String.toList_inj.mp words, List.append_cancel_left (words ▸ same)⟩

theorem word_ne_node {head : String} (isWord : IsWord text) :
    text.toList ++ rest ≠ (node head parts).chars ++ rest' := by
  obtain ⟨first, more, split⟩ := List.exists_cons_of_ne_nil isWord.1
  have plain := isWord.2 first (by simp [split])
  intro same
  rw [split, chars] at same
  obtain ⟨rfl, -⟩ := List.cons.inj same
  revert plain
  decide

mutual

theorem chars_unique : ∀ f g : Form, f.Wordy → g.Wordy → ∀ {rest rest' : List Char}, Stops rest → Stops rest' →
    f.chars ++ rest = g.chars ++ rest' → f = g ∧ rest = rest'
  | word text, word text', isWord, isWord', rest, rest', stops, stops', same => by
      simp only [chars, Wordy] at same isWord isWord'
      obtain ⟨rfl, rfl⟩ := word_unique isWord isWord' stops stops' same
      exact ⟨rfl, rfl⟩
  | word text, node head parts, isWord, _, rest, rest', _, _, same => by
      rw [Wordy] at isWord
      exact (word_ne_node isWord same).elim
  | node head parts, word text, _, isWord, rest, rest', _, _, same => by
      rw [Wordy] at isWord
      exact (word_ne_node isWord same.symm).elim
  | node head parts, node head' parts', wordy, wordy', rest, rest', _, _, same => by
      rw [Wordy] at wordy wordy'
      simp only [chars, List.cons_append, List.append_assoc, List.nil_append, List.cons.injEq, true_and] at same
      have closed (rest : List Char) : Stops (')' :: rest) := stops_cons.mpr rfl
      obtain ⟨rfl, inside⟩ :=
        word_unique wordy.1 wordy'.1 (stops_charsAll (closed rest)) (stops_charsAll (closed rest')) same
      obtain ⟨rfl, rfl⟩ := charsAll_unique parts parts' wordy.2 wordy'.2 inside
      exact ⟨rfl, rfl⟩

theorem charsAll_unique : ∀ fs gs : List Form, WordyAll fs → WordyAll gs → ∀ {rest rest' : List Char},
    charsAll fs ++ ')' :: rest = charsAll gs ++ ')' :: rest' → fs = gs ∧ rest = rest'
  | [], [], _, _, rest, rest', same => ⟨rfl, (List.cons.inj same).2⟩
  | [], g :: gs, _, _, rest, rest', same => by simp [charsAll] at same
  | f :: fs, [], _, _, rest, rest', same => by simp [charsAll] at same
  | f :: fs, g :: gs, wordy, wordy', rest, rest', same => by
      rw [WordyAll] at wordy wordy'
      simp only [charsAll, List.cons_append, List.append_assoc, List.cons.injEq, true_and] at same
      have closed (rest : List Char) : Stops (')' :: rest) := stops_cons.mpr rfl
      obtain ⟨rfl, behind⟩ :=
        chars_unique f g wordy.1 wordy'.1 (stops_charsAll (closed rest)) (stops_charsAll (closed rest')) same
      obtain ⟨rfl, rfl⟩ := charsAll_unique fs gs wordy.2 wordy'.2 behind
      exact ⟨rfl, rfl⟩

end

theorem chars_injective {f g : Form} (wordy : f.Wordy) (wordy' : g.Wordy) (same : f.chars = g.chars) : f = g :=
  (chars_unique f g wordy wordy' stops_nil stops_nil (congrArg (· ++ []) same)).1

end Form

end Lox
