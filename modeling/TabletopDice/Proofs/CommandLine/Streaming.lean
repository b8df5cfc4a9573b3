import Mathlib.Data.List.Forall2
import Mathlib.Data.List.TakeWhile
import TabletopDice.CommandLine.Run
import TabletopDice.Proofs.CommandLine.Rendering

/-!
# A chat line by line

A chat prints the answers of one session to the lines that say something, up to the first line that
cannot be read. What it printed for a part of its input stays as it is, and neither blank lines nor
the blanks around a line matter: `Settings.chat_streams`.
-/

namespace TabletopDice

/-! ### Trimming -/

namespace Text

def Blank (text : String) : Prop :=
  ∀ c ∈ text.toList, isBlank c = true

theorem trimChars_append_blank (cs : List Char) {after : List Char}
    (blank : ∀ c ∈ after, isBlank c = true) : trimChars (cs ++ after) = trimChars cs := by
  have reversed : ∀ c ∈ after.reverse, isBlank c = true := by simpa using blank
  unfold trimChars
  rw [List.dropWhile_append]
  split
  next empty => rw [List.dropWhile_eq_nil_iff.mpr blank, List.isEmpty_iff.mp empty]
  next => rw [List.reverse_append, List.dropWhile_append_of_pos reversed]

theorem trim_surrounded {before after : String} (core : String) (left : Blank before)
    (right : Blank after) : trim (before ++ core ++ after) = trim core := by
  unfold trim
  rw [String.toList_append, String.toList_append, List.append_assoc, trimChars,
    List.dropWhile_append_of_pos left, ← trimChars, trimChars_append_blank _ right]

theorem trim_blank {text : String} (blank : Blank text) : trim text = "" := by
  unfold trim trimChars
  rw [List.dropWhile_eq_nil_iff.mpr blank]
  rfl

end Text

namespace Dialogue

theorem Choice.ofData?_eq_some_iff {data : String} {c : Choice} :
    Choice.ofData? data = some c ↔ data = c.data := by
  constructor
  · intro h
    have found := List.find?_some h
    exact (beq_iff_eq.mp found).symm
  · rintro rfl
    cases c <;> decide

theorem Session.run_append {σ ε : Type} [Roller σ ε] (e : Engine) (s : Session σ)
    (inputs more : List Input) :
    (s.run e (inputs ++ more)).1 = (s.run e inputs).1 ++ ((s.run e inputs).2.run e more).1 := by
  induction inputs generalizing s with
  | nil => rfl
  | cons input rest ih => simp only [List.cons_append, run, ih]

end Dialogue

namespace CommandLine

open Dialogue

/-! ### What lines mean -/

def decode? (bytes : List UInt8) : Option String :=
  String.fromUTF8? bytes.toByteArray

/-- The texts of the lines in front of the first that is not valid UTF-8. -/
def readable : List (List UInt8) → List String
  | [] => []
  | bytes :: rest =>
    match decode? bytes with
    | some text => text :: readable rest
    | none => []

/-- What a line means that is not blank: the data of a menu button presses it, and any other text is
a message. -/
inductive Means (line : String) : Input → Prop
  | choice {c : Choice} (data : Text.trim line = c.data) : Means line (.choice c)
  | message (other : ∀ c : Choice, Text.trim line ≠ c.data) :
      Means line (.ofText (Text.trim line))

variable {line : String} {bytes : List UInt8} {lines lines' : List (List UInt8)}

theorem inputOfLine?_blank (h : Text.trim line = "") : inputOfLine? line = none :=
  if_pos h

theorem means_of_not_blank (h : Text.trim line ≠ "") :
    ∃ input, inputOfLine? line = some input ∧ Means line input := by
  unfold inputOfLine?
  dsimp only
  rw [if_neg h]
  cases pressed : Choice.ofData? (Text.trim line) with
  | some c =>
    rw [Option.elim_some]
    exact ⟨_, rfl, .choice (Choice.ofData?_eq_some_iff.mp pressed)⟩
  | none =>
    rw [Option.elim_none]
    refine ⟨_, rfl, .message fun c data => ?_⟩
    rw [Choice.ofData?_eq_some_iff.mpr data] at pressed
    cases pressed

theorem forall₂_means (texts : List String) :
    List.Forall₂ Means (texts.filter (Text.trim · ≠ "")) (texts.filterMap inputOfLine?) := by
  induction texts with
  | nil => exact .nil
  | cons text texts ih =>
    by_cases blank : Text.trim text = ""
    · rw [List.filter_cons_of_neg (by simpa using blank),
        List.filterMap_cons_none (inputOfLine?_blank blank)]
      exact ih
    · obtain ⟨input, read, means⟩ := means_of_not_blank blank
      rw [List.filter_cons_of_pos (by simpa using blank), List.filterMap_cons_some read]
      exact .cons means ih

def heard (lines : List (List UInt8)) : List Input :=
  (readable lines).filterMap inputOfLine?

theorem readable_cons_of_some {text : String} (h : decode? bytes = some text) :
    readable (bytes :: lines) = text :: readable lines := by
  rw [readable, h]

theorem readable_cons_of_none (h : decode? bytes = none) : readable (bytes :: lines) = [] := by
  rw [readable, h]

theorem readable_append_of_unreadable (h : ∃ bytes ∈ lines, decode? bytes = none) :
    readable (lines ++ lines') = readable lines := by
  induction lines with
  | nil => simp at h
  | cons bytes rest ih =>
    rw [List.cons_append]
    cases decoded : decode? bytes with
    | none => rw [readable_cons_of_none decoded, readable_cons_of_none decoded]
    | some text =>
      obtain ⟨other, member, fails⟩ := h
      rcases List.mem_cons.mp member with rfl | member
      · rw [decoded] at fails
        cases fails
      · rw [readable_cons_of_some decoded, readable_cons_of_some decoded, ih ⟨other, member, fails⟩]

theorem readable_append (h : ∀ bytes ∈ lines, decode? bytes ≠ none) :
    readable (lines ++ lines') = readable lines ++ readable lines' := by
  induction lines with
  | nil => rfl
  | cons bytes rest ih =>
    rw [List.forall_mem_cons] at h
    obtain ⟨text, decoded⟩ := Option.ne_none_iff_exists'.mp h.1
    rw [List.cons_append, readable_cons_of_some decoded, readable_cons_of_some decoded, ih h.2,
      List.cons_append]

/-- The lines of two inputs are the same, but for blank lines and the blanks around lines. A line
that differs is valid UTF-8 on both sides. -/
inductive SameLines : List (List UInt8) → List (List UInt8) → Prop
  | nil : SameLines [] []
  | same (line : List UInt8) {a b : List (List UInt8)} (h : SameLines a b) :
      SameLines (line :: a) (line :: b)
  | spaced {line line' : List UInt8} {core before after before' after' : String}
      (blank : Text.Blank before ∧ Text.Blank after) (blank' : Text.Blank before' ∧ Text.Blank after')
      (reads : decode? line = some (before ++ core ++ after))
      (reads' : decode? line' = some (before' ++ core ++ after')) {a b : List (List UInt8)}
      (h : SameLines a b) : SameLines (line :: a) (line' :: b)
  | insert {line : List UInt8} {text : String} (blank : Text.Blank text)
      (reads : decode? line = some text) {a b : List (List UInt8)} (h : SameLines a b) :
      SameLines a (line :: b)
  | delete {line : List UInt8} {text : String} (blank : Text.Blank text)
      (reads : decode? line = some text) {a b : List (List UInt8)} (h : SameLines a b) :
      SameLines (line :: a) b

theorem heard_cons_of_some {text : String} (h : decode? bytes = some text) :
    heard (bytes :: lines) = (inputOfLine? text).toList ++ heard lines := by
  rw [heard, readable_cons_of_some h, List.filterMap_cons]
  cases inputOfLine? text <;> rfl

theorem heard_cons_blank {text : String} (blank : Text.Blank text) (h : decode? bytes = some text) :
    heard (bytes :: lines) = heard lines := by
  rw [heard_cons_of_some h, inputOfLine?_blank (Text.trim_blank blank)]
  rfl

theorem inputOfLine?_congr {line' : String} (h : Text.trim line = Text.trim line') :
    inputOfLine? line = inputOfLine? line' := by
  unfold inputOfLine?
  rw [h]

theorem SameLines.heard_eq (h : SameLines lines lines') : heard lines = heard lines' := by
  induction h with
  | nil => rfl
  | same line h ih =>
    cases decoded : decode? line with
    | some text => rw [heard_cons_of_some decoded, heard_cons_of_some decoded, ih]
    | none => rw [heard, heard, readable_cons_of_none decoded, readable_cons_of_none decoded]
  | @spaced _ _ core _ _ _ _ blank blank' reads reads' _ _ _ ih =>
    have trimmed := (Text.trim_surrounded core blank.1 blank.2).trans
      (Text.trim_surrounded core blank'.1 blank'.2).symm
    rw [heard_cons_of_some reads, heard_cons_of_some reads', ih, inputOfLine?_congr trimmed]
  | insert blank reads _ ih => rw [heard_cons_blank blank reads, ih]
  | delete blank reads _ ih => rw [heard_cons_blank blank reads, ih]

theorem SameLines.all_readable (h : SameLines lines lines') :
    (∀ line ∈ lines, decode? line ≠ none) ↔ ∀ line ∈ lines', decode? line ≠ none := by
  induction h with
  | nil => exact Iff.rfl
  | same line _ ih => rw [List.forall_mem_cons, List.forall_mem_cons, ih]
  | spaced _ _ reads reads' _ ih =>
    rw [List.forall_mem_cons, List.forall_mem_cons, ih, reads, reads']
    simp
  | insert _ reads _ ih =>
    rw [List.forall_mem_cons, ih, reads]
    simp
  | delete _ reads _ ih =>
    rw [List.forall_mem_cons, ih, reads]
    simp

/-! ### What a chat prints -/

def renderAnswer : Except Empty (List Reply) → String
  | .ok sent => renderReplies sent

def renderAnswers (answers : List (Except Empty (List Reply))) : String :=
  String.join (answers.map renderAnswer)

theorem renderAnswers_append (answers more : List (Except Empty (List Reply))) :
    renderAnswers (answers ++ more) = renderAnswers answers ++ renderAnswers more := by
  simp [renderAnswers]

/-- A seeded generator never fails, so each answer is made of replies. -/
theorem exists_replies (answers : List (Except Empty (List Reply))) :
    ∃ sent : List (List Reply), answers = sent.map .ok ∧
      renderAnswers answers = renderReplies sent.flatten := by
  induction answers with
  | nil => exact ⟨[], rfl, rfl⟩
  | cons answer answers ih =>
    obtain ⟨sent, rfl, rendered⟩ := ih
    cases answer with
    | error e => exact e.elim
    | ok replies =>
      refine ⟨replies :: sent, rfl, ?_⟩
      rw [renderReplies, List.flatten_cons, List.map_append, String.join_append,
        ← renderReplies, ← renderReplies, ← rendered]
      exact String.join_cons

namespace Chat

variable {e : Engine} {chat : Chat} {g : Seeded}

theorem handle_eq (e : Engine) (chat : Chat) (input : Input) :
    chat.handle e input = (renderAnswer (chat.step e input).1, (chat.step e input).2) := by
  unfold handle
  split
  next answered => rw [answered]; rfl

theorem line?_of_none (h : decode? bytes = none) : chat.line? e bytes = none := by
  unfold decode? at h
  rw [line?, h]
  rfl

theorem line?_of_some {text : String} (h : decode? bytes = some text) :
    chat.line? e bytes =
      let said := Session.run e chat (inputOfLine? text).toList
      some (renderAnswers said.1, said.2) := by
  unfold decode? at h
  rw [line?, h, Option.map_some]
  cases inputOfLine? text with
  | none => rfl
  | some input =>
    dsimp only
    rw [handle_eq]
    simp [Session.run, renderAnswers]

theorem lines_eq (e : Engine) (chat : Chat) (printed : String) (lines : List (List UInt8)) :
    chat.lines e printed lines =
      (printed ++ renderAnswers (Session.run e chat (heard lines)).1,
        lines.all fun line => (decode? line).isSome) := by
  induction lines generalizing chat printed with
  | nil => simp [Chat.lines, heard, readable, Session.run, renderAnswers]
  | cons bytes rest ih =>
    rw [Chat.lines, List.all_cons]
    cases decoded : decode? bytes with
    | none =>
      rw [line?_of_none decoded, heard, readable_cons_of_none decoded]
      simp [Session.run, renderAnswers]
    | some text =>
      rw [line?_of_some decoded]
      dsimp only
      rw [ih, heard_cons_of_some decoded, Session.run_append, renderAnswers_append,
        String.append_assoc]
      rfl

def printed (e : Engine) (g : Seeded) (inputs : List Input) : String :=
  renderAnswers (Session.run e (⟨.idle, g⟩ : Chat) (.start :: inputs)).1

theorem run_eq (e : Engine) (g : Seeded) (input : List UInt8) :
    Chat.run e g input =
      (printed e g (heard (input.splitOn newline)),
        (input.splitOn newline).all fun line => (decode? line).isSome) := by
  unfold Chat.run opening
  rw [handle_eq]
  dsimp only
  rw [lines_eq]
  simp [printed, Session.run, renderAnswers]

theorem printed_append (e : Engine) (g : Seeded) (inputs more : List Input) :
    ∃ answers, printed e g (inputs ++ more) = printed e g inputs ++ renderAnswers answers := by
  refine ⟨((Session.run e (⟨.idle, g⟩ : Chat) (.start :: inputs)).2.run e more).1, ?_⟩
  rw [printed, ← List.cons_append, Session.run_append, renderAnswers_append]
  rfl

end Chat

/-! ### Whole inputs -/

theorem decode?_nil : decode? [] = some "" :=
  rfl

theorem heard_append (h : ∀ line ∈ lines, decode? line ≠ none) :
    heard (lines ++ lines') = heard lines ++ heard lines' := by
  rw [heard, readable_append h, List.filterMap_append]
  rfl

theorem heard_append_of_unreadable (h : ∃ line ∈ lines, decode? line = none) :
    heard (lines ++ lines') = heard lines := by
  rw [heard, readable_append_of_unreadable h]
  rfl

theorem heard_nil : heard ([].splitOn newline) = [] := by
  have blank : Text.Blank "" := fun c member => nomatch member
  rw [List.splitOn_nil, heard_cons_blank blank decode?_nil]
  rfl

/-- What comes of the standard inputs of a chat that starts with the generator `g`. -/
structure Streams (e : Engine) (g : Seeded) (report : List UInt8 → ExitReport) : Prop where
  /-- A session answers to the start and then to what the readable lines mean, and its replies are
  printed one after the other. -/
  stdout : ∀ input, ∃ (inputs : List Input) (sent : List (List Reply)),
    List.Forall₂ Means ((readable (input.splitOn newline)).filter (Text.trim · ≠ "")) inputs ∧
      (Session.run e (⟨.idle, g⟩ : Session Seeded) (.start :: inputs)).1 = sent.map .ok ∧
      Prints sent.flatten (report input).stdout
  fails : ∀ input, (report input).code = 1 ↔
    ∃ line ∈ input.splitOn newline, decode? line = none
  succeeds : ∀ input, (report input).code = 0 ↔
    ∀ line ∈ input.splitOn newline, decode? line ≠ none
  /-- What was printed for some whole lines stays, and is all if one of them cannot be read. -/
  grows : ∀ a b, ∃ more,
    (report (a ++ newline :: b)).stdout = (report (a ++ [newline])).stdout ++ more ∧
      ((∃ line ∈ (a ++ [newline]).splitOn newline, decode? line = none) → more = "")
  spacing : ∀ a b, SameLines (a.splitOn newline) (b.splitOn newline) →
    (report a).stdout = (report b).stdout ∧ (report a).code = (report b).code

namespace Settings

variable {o : Settings} {g : Seeded} {input : List UInt8}

theorem chat_stdout (o : Settings) (g : Seeded) (input : List UInt8) :
    (o.chat g input).stdout = Chat.printed o.engine g (heard (input.splitOn newline)) := by
  rw [chat, Chat.run_eq]
  split
  next same => exact (Prod.mk.inj same).1.symm
  next same => exact (Prod.mk.inj same).1.symm

theorem chat_code (o : Settings) (g : Seeded) (input : List UInt8) :
    (o.chat g input).code =
      if ∀ line ∈ input.splitOn newline, decode? line ≠ none then 0 else 1 := by
  have all : ((input.splitOn newline).all fun line => (decode? line).isSome) = true ↔
      ∀ line ∈ input.splitOn newline, decode? line ≠ none := by
    simp [Option.isSome_iff_ne_none]
  rw [chat, Chat.run_eq]
  split
  next same => rw [if_pos (all.mp (Prod.mk.inj same).2)]
  next same =>
    rw [if_neg]
    intro readable
    rw [all.mpr readable] at same
    cases (Prod.mk.inj same).2

theorem streams_chat (o : Settings) (g : Seeded) : Streams o.engine g (o.chat g) where
  stdout input := by
    obtain ⟨sent, answered, rendered⟩ := exists_replies
      (Session.run o.engine (⟨.idle, g⟩ : Chat) (.start :: heard (input.splitOn newline))).1
    refine ⟨_, sent, forall₂_means _, answered, ?_⟩
    rw [chat_stdout, Chat.printed, rendered]
    exact prints_renderReplies sent.flatten
  fails input := by
    rw [chat_code]
    split
    next all =>
      refine iff_of_false (by decide) ?_
      rintro ⟨line, member, fails⟩
      exact all line member fails
    next unreadable => simpa using unreadable
  succeeds input := by
    rw [chat_code]
    split
    next all => simpa using all
    next unreadable => exact iff_of_false (by decide) unreadable
  grows a b := by
    rw [chat_stdout, chat_stdout, List.splitOn_append_cons_self, List.splitOn_append_cons_self]
    by_cases all : ∀ line ∈ a.splitOn newline, decode? line ≠ none
    · obtain ⟨answers, same⟩ := Chat.printed_append o.engine g (heard (a.splitOn newline))
        (heard (b.splitOn newline))
      rw [heard_append all, heard_append all, heard_nil, List.append_nil]
      refine ⟨_, same, ?_⟩
      rintro ⟨line, member, fails⟩
      rcases List.mem_append.mp member with member | member
      · exact absurd fails (all line member)
      · rw [List.splitOn_nil, List.mem_singleton] at member
        rw [member, decode?_nil] at fails
        cases fails
    · have unreadable : ∃ line ∈ a.splitOn newline, decode? line = none := by simpa using all
      rw [heard_append_of_unreadable unreadable, heard_append_of_unreadable unreadable]
      exact ⟨"", String.append_empty.symm, fun _ => rfl⟩
  spacing a b same := by
    rw [chat_stdout, chat_stdout, chat_code, chat_code, same.heard_eq]
    simp only [same.all_readable, and_self]

/-- A command line without a formula runs a chat, whatever its other options are. With a seed its
standard input alone decides what is printed and how it ends. -/
theorem chat_streams {args : List String} {seed : UInt64}
    (read : Settings.ofArguments args = .ok (.run o)) (wordless : o.words = [])
    (seeded : o.seed = some seed) (entropy : UInt64) :
    Streams o.engine ⟨seed⟩ fun input => run args input entropy := by
  have ran : (fun input => run args input entropy) = o.chat ⟨seed⟩ := by
    funext input
    rw [run, read]
    dsimp only
    rw [if_pos wordless, generator, seeded]
    rfl
  rw [ran]
  exact o.streams_chat ⟨seed⟩

theorem chat_streams_unreadable :
    let args : List String := ["--seed", "7", "--dc=-3"]
    let o : Settings := { difficulty := some (-3), seed := some 7 }
    Settings.ofArguments args = .ok (.run o) ∧ o.words = [] ∧ o.seed = some 7 ∧
      Streams o.engine ⟨7⟩ (fun input => run args input 0) ∧
      (run args ([0x2F] ++ newline :: [0xFF]) 0).code = 1 := by
  intro args o
  have read : Settings.ofArguments args = .ok (.run o) := by decide +kernel
  have streams : Streams o.engine ⟨7⟩ (fun input => run args input 0) :=
    chat_streams read rfl rfl 0
  have unreadable : decode? [0xFF] = none := by decide +kernel
  refine ⟨read, rfl, rfl, streams, (streams.fails _).mpr ⟨[0xFF], ?_, unreadable⟩⟩
  rw [List.splitOn_append_cons_self]
  exact List.mem_append_right _ List.mem_cons_self

end Settings

end CommandLine

end TabletopDice
