import Automation.Proofs.Lines
import Automation.Proofs.Loading.Conversation

/-
Units that write more than their replies.

A unit writes lines, and some of them are replies.  A request is answered by the next line that is a
reply, and reading stops right behind that line, so the n-th request of a conversation is answered by
the n-th of the replies and what stands between them makes no difference.  That is an induction over
the conversation whose step is an induction over the lines up to the next reply.
-/

namespace Automation

namespace Text

/-- A text without a line feed is taken whole, and any other one up to its first line feed. -/
theorem takeLine_cases (cs : List Char) :
    ('\n' ∉ cs ∧ takeLine cs = (cs, [])) ∨
      ∃ line after, '\n' ∉ line ∧ cs = line ++ '\n' :: after ∧
        takeLine cs = (line ++ ['\n'], after) := by
  induction cs with
  | nil => exact Or.inl ⟨by simp, rfl⟩
  | cons c rest ih =>
      by_cases hc : c = '\n'
      · subst hc
        exact Or.inr ⟨[], rest, by simp, rfl, by simp [takeLine]⟩
      · rcases ih with ⟨hrest, htake⟩ | ⟨line, after, hline, rfl, htake⟩
        · exact Or.inl ⟨by simp [hrest, Ne.symm hc], by simp [takeLine, hc, htake]⟩
        · exact Or.inr
            ⟨c :: line, after, by simp [hline, Ne.symm hc], rfl, by simp [takeLine, hc, htake]⟩

theorem eq_nil_of_takeLine {text : List Char} (h : (takeLine text).1 = []) : text = [] := by
  rcases takeLine_cases text with ⟨-, htake⟩ | ⟨line, after, -, -, htake⟩
  · rw [htake] at h
    exact h
  · rw [htake] at h
    exact absurd h (by simp)

/-- A line that is taken is one less to take. -/
theorem takeLine_fewer {text : List Char} {lines : Nat}
    (h : text = [] ∨ (splitAt '\n' text).length ≤ lines + 1) :
    (takeLine text).2 = [] ∨ (splitAt '\n' (takeLine text).2).length ≤ lines := by
  rcases takeLine_cases text with ⟨-, htake⟩ | ⟨line, after, hline, rfl, htake⟩
  · rw [htake]
    exact Or.inl rfl
  · rw [htake]
    rw [splitAt_append_cons, splitAt_of_notMem '\n' hline, List.singleton_append,
      List.length_cons] at h
    rcases h with h | h
    · exact absurd h (by simp)
    · exact Or.inr (Nat.le_of_succ_le_succ h)

theorem stripEnds_append_singleton {drop : Char → Bool} {c : Char} (h : drop c = true)
    (cs : List Char) : stripEnds drop (cs ++ [c]) = stripEnds drop cs := by
  rw [stripEnds, stripEnds, List.dropWhile_append]
  by_cases hall : (cs.dropWhile drop).isEmpty = true
  · rw [if_pos hall, List.isEmpty_iff.mp hall]
    simp [h]
  · rw [if_neg hall, List.reverse_append]
    simp [h]

/-- The line feed behind a line is white space. -/
theorem trim_append_lineFeed (line : List Char) :
    trim (String.ofList (line ++ ['\n'])) = trim (String.ofList line) := by
  rw [trim, trim, String.toList_ofList, String.toList_ofList,
    stripEnds_append_singleton (by decide)]

/-- To read the lines of a text is to read its first line and then the others, when nothing is read in
an empty line and a line feed behind a line is of no account. -/
theorem filterMap_takeLine {α : Type} {read : List Char → Option α} (hempty : read [] = none)
    (hfeed : ∀ line, read (line ++ ['\n']) = read line) (text : List Char) :
    (splitAt '\n' text).filterMap read =
      (read (takeLine text).1).toList ++ (splitAt '\n' (takeLine text).2).filterMap read := by
  have hone : ∀ line, [line].filterMap read = (read line).toList := by
    intro line
    cases hline : read line <;> simp [hline]
  rcases takeLine_cases text with ⟨hnone, htake⟩ | ⟨line, after, hline, rfl, htake⟩
  · rw [htake, splitAt_of_notMem '\n' hnone, hone, splitAt, hone, hempty]
    simp
  · rw [htake, splitAt_append_cons, List.filterMap_append, splitAt_of_notMem '\n' hline, hone, hfeed]

end Text

namespace Reply

/-- Read a line as it has been received. -/
def ofReceived? (line : List Char) : Option (Decoded Reply) := ofLine? (Text.trim (String.ofList line))

/-- The line is a reply, well-formed or not. -/
def isReply (line : String) : Bool := (ofReceived? line.toList).isSome

/-- What the lines of a text that are replies say. -/
def ofText (text : List Char) : List (Decoded Reply) :=
  (Text.splitAt '\n' text).filterMap ofReceived?

/-- A reply starts with a brace and holds an object that has a status. -/
theorem ofLine?_eq_some_iff {line : String} {decoded : Decoded Reply} :
    ofLine? line = some decoded ↔
      line.toList.head? = some '\x7b' ∧ ∃ members status,
        Json.parse? line = some (.object members) ∧ members.lookup "status" = some status ∧
          decoded = ofJson (.object members) status := by
  rw [ofLine?]
  by_cases hbrace : line.toList.head? = some '\x7b'
  · rw [if_pos hbrace]
    constructor
    · intro h
      obtain ⟨value, hvalue, h⟩ := Option.bind_eq_some_iff.mp h
      obtain ⟨status, hstatus, h⟩ := Option.bind_eq_some_iff.mp h
      cases value with
      | object members => exact ⟨hbrace, members, status, hvalue, hstatus, (Option.some.inj h).symm⟩
      | null => cases hstatus
      | boolean b => cases hstatus
      | number n => cases hstatus
      | text s => cases hstatus
      | array items => cases hstatus
    · rintro ⟨-, members, status, hvalue, hstatus, rfl⟩
      rw [hvalue]
      change (Json.get? "status" (.object members)).bind _ = _
      rw [Json.get?, hstatus]
      rfl
  · rw [if_neg hbrace]
    constructor
    · intro h
      cases h
    · intro h
      exact absurd h.1 hbrace

theorem ofReceived?_nil : ofReceived? [] = none := by decide

theorem ofReceived?_append_lineFeed (line : List Char) :
    ofReceived? (line ++ ['\n']) = ofReceived? line := by
  rw [ofReceived?, Text.trim_append_lineFeed]
  rfl

@[simp] theorem ofText_nil : ofText [] = [] := by decide

/-- The replies of a text are that in its first line and those after it. -/
theorem ofText_takeLine (text : List Char) :
    ofText text = (ofReceived? (Text.takeLine text).1).toList ++ ofText (Text.takeLine text).2 :=
  Text.filterMap_takeLine ofReceived?_nil ofReceived?_append_lineFeed text

theorem filterMap_lines (text : String) :
    ((Text.lines text).filterMap fun line => ofLine? (Text.trim line)) = ofText text.toList := by
  rw [Text.lines, List.filterMap_map, ofText]
  rfl

/-- Lines that are no replies make no difference. -/
theorem ofText_eq_of_filter_eq {text other : String}
    (h : (Text.lines text).filter isReply = (Text.lines other).filter isReply) :
    ofText text.toList = ofText other.toList := by
  have hread : ∀ s : String, ofText s.toList =
      ((Text.lines s).filter isReply).filterMap fun line => ofReceived? line.toList := by
    intro s
    rw [List.filterMap_filter, Text.lines, List.filterMap_map, ofText]
    apply List.filterMap_congr
    intro line _
    rw [Function.comp_apply, isReply, String.toList_ofList]
    cases hline : ofReceived? line <;> rfl
  rw [hread, hread, h]

/-- What the next reply answers.  When there is none the unit has gone. -/
def answer : Option (Decoded Reply) → Except ExchangeError Reply
  | none => .error .exited
  | some (.ok reply) => .ok reply
  | some (.error e) => .error (.malformed e)

end Reply

/-- A process plays a text.  In every world that is related to some text the process takes whatever it
is told, and its lines are those of the text. -/
structure Launcher.Plays {τ : Type} (launcher : Launcher τ) (process : Nat)
    (unread : World τ → List Char → Prop) : Prop where
  send : ∀ request w text, unread w text →
    ((launcher.send process (Request.line request)).run w).1 = .ok () ∧
      unread ((launcher.send process request.line).run w).2 text
  receiveLine : ∀ w text, unread w text →
    ((launcher.receiveLine process).run w).1 = .ok (String.ofList (Text.takeLine text).1) ∧
      unread ((launcher.receiveLine process).run w).2 (Text.takeLine text).2
  waiting : ∀ w text, unread w text →
    (Text.splitAt '\n' text).length ≤ launcher.waiting process w + 1

namespace IsolatedEntry

variable {τ : Type} {launcher : Launcher τ} {process : Nat} {unread : World τ → List Char → Prop}

/-- A line that has been received is a reply, or the end, or it is skipped. -/
theorem run_readReply_succ {lines : Nat} {w next : World τ} {line : List Char}
    (h : (launcher.receiveLine process).run w = (.ok (String.ofList line), next)) :
    (readReply launcher process (lines + 1)).run w =
      if line = [] then (.error .exited, next)
      else
        match Reply.ofReceived? line with
        | none => (readReply launcher process lines).run next
        | some decoded => (Reply.answer (some decoded), next) := by
  rw [readReply, StateT.run_bind, h]
  by_cases hend : line = []
  · subst hend
    rfl
  · have hline : String.ofList line ≠ "" := fun heq => hend (String.ofList_injective heq)
    rw [if_neg hend]
    change (StateT.run (if String.ofList line = "" then _ else _) next) = _
    rw [if_neg hline, ← Reply.ofReceived?]
    cases Reply.ofReceived? line with
    | none => rfl
    | some decoded => cases decoded <;> rfl

/-- Reading stops behind the first reply. -/
theorem readReply_of_plays (hplays : launcher.Plays process unread) {lines : Nat} {w : World τ}
    {text : List Char} (hunread : unread w text)
    (hlines : text = [] ∨ (Text.splitAt '\n' text).length ≤ lines) :
    let read := (readReply launcher process lines).run w
    read.1 = Reply.answer (Reply.ofText text).head? ∧
      (read.1.isOk = true → ∃ after, unread read.2 after ∧
        Reply.ofText after = (Reply.ofText text).tail) := by
  induction lines generalizing w text with
  | zero =>
      have hnone : text = [] := by
        rcases hlines with hnone | hlines
        · exact hnone
        · exact absurd (List.length_eq_zero_iff.mp (Nat.le_zero.mp hlines))
            (Text.splitAt_ne_nil '\n' text)
      subst hnone
      rw [Reply.ofText_nil]
      exact ⟨rfl, fun h => by cases h⟩
  | succ lines ih =>
      obtain ⟨hline, hafter⟩ := hplays.receiveLine w text hunread
      have hreceived : (launcher.receiveLine process).run w =
          (.ok (String.ofList (Text.takeLine text).1), ((launcher.receiveLine process).run w).2) :=
        Prod.ext hline rfl
      rw [run_readReply_succ hreceived]
      by_cases hend : (Text.takeLine text).1 = []
      · rw [if_pos hend, Text.eq_nil_of_takeLine hend, Reply.ofText_nil]
        exact ⟨rfl, fun h => by cases h⟩
      · rw [if_neg hend, Reply.ofText_takeLine text]
        cases hreply : Reply.ofReceived? (Text.takeLine text).1 with
        | none =>
            apply ih hafter
            exact Text.takeLine_fewer hlines
        | some decoded => exact ⟨rfl, fun _ => ⟨_, hafter, rfl⟩⟩

/-- A request is answered by the next reply, and the later ones are left. -/
theorem exchange_of_plays (hplays : launcher.Plays process unread) (request : Request) {w : World τ}
    {text : List Char} (hunread : unread w text) :
    let exchanged := (exchange launcher process request).run w
    exchanged.1 = Reply.answer (Reply.ofText text).head? ∧
      (exchanged.1.isOk = true → ∃ after, unread exchanged.2 after ∧
        Reply.ofText after = (Reply.ofText text).tail) := by
  obtain ⟨hsent, hstill⟩ := hplays.send request w text hunread
  have hran : (launcher.send process request.line).run w =
      (.ok (), ((launcher.send process request.line).run w).2) := Prod.ext hsent rfl
  rw [exchange, StateT.run_bind, hran]
  exact readReply_of_plays hplays hstill (Or.inr (hplays.waiting _ text hstill))

/-- What comes of some requests to a unit that writes some replies. -/
def course : List Request → List (Decoded Reply) → List Exchange
  | [], _ => []
  | request :: rest, replies =>
      ⟨request, Reply.answer replies.head?⟩ ::
        if (Reply.answer replies.head?).isOk then course rest replies.tail
        else rest.map fun later => ⟨later, .error .outOfSync⟩

/-- What comes of the requests of an entry depends on the replies of its unit alone. -/
theorem exchanges_of_plays {entry : IsolatedEntry} (hplays : launcher.Plays entry.process unread)
    (hsound : entry.broken = false) (requests : List Request) {w : World τ} {text : List Char}
    (hunread : unread w text) :
    ((entry.converse launcher requests).run w).1.1 = course requests (Reply.ofText text) := by
  induction requests generalizing w text with
  | nil => rfl
  | cons request rest ih =>
      obtain ⟨hanswer, hleft⟩ := exchange_of_plays hplays request hunread
      rw [run_converse_cons, run_call_of_sound hsound, course]
      dsimp only
      rw [hanswer] at hleft ⊢
      by_cases hok : (Reply.answer (Reply.ofText text).head?).isOk = true
      · obtain ⟨after, hafter, hreplies⟩ := hleft hok
        have hsame : ({ entry with broken := false } : IsolatedEntry) = entry := by
          rw [← hsound]
        rw [if_pos hok, hok, Bool.not_true, hsame, ih hafter, hreplies]
      · have hfailed : (Reply.answer (Reply.ofText text).head?).isOk = false := by simpa using hok
        rw [if_neg hok, hfailed, Bool.not_false, run_converse_of_broken rfl]

/-- As long as every request has been answered, the replies are taken one by one. -/
theorem answer_of_course {requests : List Request} {replies : List (Decoded Reply)} {n : Nat}
    {exchange : Exchange} (h : (course requests replies)[n]? = some exchange)
    (hearlier : ∀ earlier ∈ (course requests replies).take n, earlier.answered = true) :
    exchange.answer = Reply.answer replies[n]? := by
  induction n generalizing requests replies with
  | zero =>
      cases requests with
      | nil => cases h
      | cons request rest =>
          rw [course, List.getElem?_cons_zero] at h
          rw [← Option.some.inj h, ← List.head?_eq_getElem?]
  | succ n ih =>
      cases requests with
      | nil => cases h
      | cons request rest =>
          rw [course, List.take_succ_cons, List.forall_mem_cons] at hearlier
          obtain ⟨hfirst, hothers⟩ := hearlier
          have hok : (Reply.answer replies.head?).isOk = true := hfirst
          rw [course, List.getElem?_cons_succ, if_pos hok] at h
          rw [if_pos hok] at hothers
          rw [ih h hothers, List.getElem?_tail]

end IsolatedEntry

section Lamp

theorem Text.length_splitAt_le (cs : List Char) : (splitAt '\n' cs).length ≤ cs.length + 1 := by
  induction cs with
  | nil => exact Nat.le_refl 1
  | cons c rest ih =>
      rw [splitAt]
      by_cases hc : c = '\n'
      · rw [if_pos hc]
        exact Nat.succ_le_succ ih
      · rw [if_neg hc]
        cases hs : splitAt '\n' rest with
        | nil => exact Nat.succ_le_succ (Nat.zero_le _)
        | cons first others =>
            rw [hs] at ih
            exact Nat.le_succ_of_le ih

theorem Launcher.plays_tape (process : Nat) :
    Launcher.tape.Plays process fun w text => w.outside = text where
  send _ _ _ h := ⟨rfl, h⟩
  receiveLine w text h := by
    subst h
    exact ⟨rfl, rfl⟩
  waiting w text h := by
    subst h
    exact Text.length_splitAt_le w.outside

/-- The unit is done, and tells of nothing else. -/
def tersely : String := "\x7b\"status\":\"done\"\x7d\n"

/-- The unit is done, and tells of other things as well. -/
def atLength : String := "dark\n\x7b\"status\":\"done\"\x7d\n\x7b\"on\":1\x7d\n\n\x7bon\n"

end Lamp

end Automation
