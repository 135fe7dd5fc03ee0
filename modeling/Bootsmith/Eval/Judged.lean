/-
**The verdict of the evaluation.**

A run is told by what was read on its screens, whatever the tools, the monitor and the clock answer.

* `verdict_judged`: the verdict is that of the first screen with a marker, which is the last screen that was
  read, and otherwise a timeout with the last picture;
* `exit_zero_clean`: a run that exits with 0 read no marker of a failure;
* `run_paced`: with a clock that goes on while the tool sleeps, the pictures are as few as the time allows, and
  with enough rounds the run returns.
-/

import Bootsmith.Eval.Killed
import Bootsmith.Library.Machine

namespace Bootsmith.Eval.Harness

open Bootsmith.Library Exchange
open Bootsmith.Pipeline (join)

/-! ### What a run shows -/

/-- The picture that was read, and its text. -/
def eventScreen : Event Answer → Option (Text × Text)
  | ⟨.tesseract img, answer⟩ => (ocrText answer).toOption.map fun text => (img, text)
  | _ => none

/-- The picture that was taken. -/
def eventShot : Event Answer → Option Text
  | ⟨.screendump out, answer⟩ => Except.toOption (ε := Failure) answer |>.map fun _ => out
  | _ => none

def screens (past : History) : List (Text × Text) := past.filterMap eventScreen

def shots (past : History) : List Text := past.filterMap eventShot

/-- The call takes a picture. -/
def Call.dumps : Call → Bool
  | .screendump _ => true
  | _ => false

/-- How often a picture was asked for. -/
def dumps (past : History) : Nat := past.countP (·.call.dumps)

def Call.slept : Call → Nat
  | .sleep millis => millis
  | _ => 0

/-- How long the tool slept. -/
def slept (past : History) : Nat := (past.map (·.call.slept)).sum

/-- The call neither takes nor reads a picture. -/
def Call.blank : Call → Bool
  | .screendump _ => false
  | .tesseract _ => false
  | _ => true

/-- No picture was taken or read. -/
def Blank (past : History) : Prop := ∀ event ∈ past, event.call.blank = true

theorem Blank.append {past : History} {event : Event Answer} (blank : Blank past) (shows : event.call.blank = true) :
    Blank (past ++ [event]) := by
  intro other member
  rcases List.mem_append.mp member with earlier | last
  · exact blank other earlier
  · rw [List.mem_singleton.mp last]
    exact shows

theorem Blank.join {past more : History} (blank : Blank past) (rest : Blank more) : Blank (past ++ more) :=
  List.forall_mem_append.mpr ⟨blank, rest⟩

theorem Blank.shows {past : History} (blank : Blank past) :
    screens past = [] ∧ shots past = [] ∧ dumps past = 0 := by
  refine ⟨List.filterMap_eq_nil_iff.mpr fun event member => ?_, List.filterMap_eq_nil_iff.mpr fun event member => ?_,
    List.countP_eq_zero.mpr fun event member => ?_⟩
  all_goals
    have shows := blank event member
    obtain ⟨call, answer⟩ := event
    cases call <;> first | rfl | exact Bool.false_ne_true | exact absurd shows Bool.false_ne_true

theorem blank_keeps {α : Type} {program : Io α} (asks : Program.Asks (fun call => call.blank = true) program) :
    Triple (fun _ _ => True) Blank program (fun _ => Blank) Blank :=
  triple_of_asks asks fun _ _ shows blank => ⟨trivial, fun _ => blank.append shows⟩

theorem screens_append (past more : History) : screens (past ++ more) = screens past ++ screens more :=
  List.filterMap_append

theorem shots_append (past more : History) : shots (past ++ more) = shots past ++ shots more :=
  List.filterMap_append

theorem dumps_append (past more : History) : dumps (past ++ more) = dumps past + dumps more := List.countP_append

theorem slept_append (past more : History) : slept (past ++ more) = slept past + slept more := by
  rw [slept, List.map_append, List.sum_append, slept, slept]

/-! ### Judging the screens -/

section Judge

variable {platform : Platform} {cli : Cli} {last last' : Option Text} {front events : History} {verdict : Verdict}

/-- **The verdict is that of the first screen with a marker**, the last one that was read; without one it is a
timeout with the last picture. -/
structure Judged (platform : Platform) (cli : Cli) (last : Option Text) (events : History) (verdict : Verdict) :
    Prop where
  verdict : verdict
    = ((screens events).findSome? (judge platform cli)).getD (.timeout ((shots events).getLast?.or last))
  front : ∀ screen ∈ (screens events).dropLast, judge platform cli screen = none

/-- Events without a marker in front. -/
theorem Judged.behind (judged : Judged platform cli last' events verdict)
    (clear : ∀ screen ∈ screens front, judge platform cli screen = none)
    (known : last' = (shots front).getLast?.or last) : Judged platform cli last (front ++ events) verdict := by
  obtain ⟨same, others⟩ := judged
  constructor
  · rw [same, screens_append, shots_append, List.findSome?_append, List.findSome?_eq_none_iff.mpr clear,
      Option.none_or, List.getLast?_append, Option.or_assoc, known]
  · intro screen member
    rw [screens_append] at member
    rcases List.eq_nil_or_concat (screens events) with none | ⟨earlier, final, split⟩
    · rw [none, List.append_nil] at member
      exact clear screen (List.dropLast_subset _ member)
    · rw [split, List.concat_eq_append, ← List.append_assoc, List.dropLast_concat] at member
      rcases List.mem_append.mp member with inFront | behind
      · exact clear screen inFront
      · refine others screen ?_
        rwa [split, List.concat_eq_append, List.dropLast_concat]

end Judge

/-! ### Looking at the clock -/

section Pace

variable {limit : Nat → Prop} {pause count deadline interval instant first : Nat} {lead front events : History}

/-- **So many rounds of a loop**: the clock was read in the last of them, with a pause behind each of the others,
and the limit was not passed. -/
def Polled (limit : Nat → Prop) (pause count : Nat) (events : History) : Prop :=
  count = 0 ∨ ∃ (mid : History) (instant : Nat) (rest : History), events = mid ++ ⟨.now, instant⟩ :: rest ∧
    limit instant ∧ (count - 1) * pause ≤ slept mid

/-- A round in front of the others. -/
theorem Polled.round (polled : Polled limit pause count events) (within : limit instant)
    (pauses : slept front = pause) :
    Polled limit pause (count + 1) (lead ++ ⟨.now, instant⟩ :: (front ++ events)) := by
  right
  rw [Nat.add_sub_cancel]
  rcases polled with none | ⟨mid, later, rest, rfl, inTime, total⟩
  · refine ⟨lead, instant, front ++ events, rfl, within, ?_⟩
    rw [none, Nat.zero_mul]
    exact Nat.zero_le _
  · refine ⟨lead ++ ⟨.now, instant⟩ :: (front ++ mid), later, rest, by simp, inTime, ?_⟩
    have time : slept (lead ++ ⟨.now, instant⟩ :: (front ++ mid)) = slept lead + (pause + slept mid) := by
      show slept (lead ++ ([⟨.now, instant⟩] ++ (front ++ mid))) = _
      rw [slept_append, slept_append, slept_append, pauses, show slept [⟨.now, instant⟩] = 0 from rfl, Nat.zero_add]
    rw [time]
    cases count with
    | zero =>
      rw [Nat.zero_mul]
      exact Nat.zero_le _
    | succ count =>
      rw [Nat.add_sub_cancel] at total
      rw [Nat.succ_mul]
      omega

/-- **The clock goes on while the tool sleeps.** -/
def Honest (past : History) : Prop :=
  ∀ (before : History) (first : Nat) (mid : History) (second : Nat) (after : History),
    past = before ++ ⟨.now, first⟩ :: (mid ++ ⟨.now, second⟩ :: after) → first + slept mid ≤ second

theorem Honest.of_append (honest : Honest (front ++ events)) : Honest front := by
  rintro before first mid second after rfl
  exact honest before first mid second (after ++ events) (by simp)

/-- With such a clock the rounds take their time. -/
theorem Polled.within (polled : Polled limit pause count events)
    (honest : Honest (front ++ ⟨.now, first⟩ :: events)) :
    count = 0 ∨ ∃ instant, limit instant ∧ first + (count - 1) * pause ≤ instant := by
  rcases polled with none | ⟨mid, instant, rest, rfl, inTime, total⟩
  · exact Or.inl none
  · have time := honest front first mid instant rest rfl
    exact Or.inr ⟨instant, inTime, by omega⟩

/-- At most one picture for each pause, each before the deadline. -/
def Paced (deadline interval : Nat) (events : History) : Prop :=
  Polled (· < deadline) interval (dumps events) events

theorem Paced.round (paced : Paced deadline interval events) (before : instant < deadline)
    (one : dumps front = 1) (pauses : slept front = interval) :
    Paced deadline interval (⟨.now, instant⟩ :: (front ++ events)) := by
  have total : dumps (⟨.now, instant⟩ :: (front ++ events)) = dumps events + 1 := by
    show dumps ([⟨.now, instant⟩] ++ (front ++ events)) = _
    rw [dumps_append, dumps_append, one, show dumps [⟨.now, instant⟩] = 0 from rfl]
    omega
  have next : Polled (· < deadline) interval (dumps events + 1) ([] ++ ⟨.now, instant⟩ :: (front ++ events)) :=
    Polled.round paced before pauses
  rwa [← total] at next

end Pace

/-! ### Watching -/

/-- What a shutdown asks shows nothing. -/
theorem shutdown_shows (keep : Bool) (past : History) :
    Triple (fun _ _ => True) (· = past) (shutdown keep)
      (fun _ later => ∃ tail, later = past ++ tail ∧ Blank tail) fun _ => False := by
  unfold shutdown
  split
  · rintro _ rfl
    exact ⟨[], (List.append_nil _).symm, List.forall_mem_nil _⟩
  · rintro _ rfl
    refine ⟨trivial, fun killed => ⟨trivial, fun waited => ⟨[⟨.killQemu, killed⟩, ⟨.waitQemu, waited⟩],
      List.append_assoc _ _ _, ?_⟩⟩⟩
    exact List.forall_mem_cons.mpr ⟨rfl, List.forall_mem_singleton.mpr rfl⟩

/-- **What the loop does behind a past**: the pace of its pictures, a picture for each round when they are used
up, and what its verdict says. -/
structure Watched (platform : Platform) (cli : Cli) (deadline rounds : Nat) (last : Option Text)
    (value : Option Verdict) (events : History) : Prop where
  paced : Paced deadline (cli.interval * 1000) events
  used : value = none → dumps events = rounds
  judged : ∀ verdict, value = some verdict → Judged platform cli last events verdict

section Watch

variable {platform : Platform} {cli : Cli} {deadline rounds instant : Nat} {last last' : Option Text}
  {front events tail past : History}

/-- A round without a verdict in front of the others. -/
theorem Watched.round {value : Option Verdict}
    (watched : Watched platform cli deadline rounds last' value events) (before : instant < deadline)
    (one : dumps front = 1) (pause : slept front = cli.interval * 1000)
    (clear : ∀ screen ∈ screens front, judge platform cli screen = none)
    (known : last' = (shots front).getLast?.or last) :
    Watched platform cli deadline (rounds + 1) last value (⟨.now, instant⟩ :: (front ++ events)) where
  paced := watched.paced.round before one pause
  used none := by
    show dumps ([⟨.now, instant⟩] ++ (front ++ events)) = rounds + 1
    rw [dumps_append, dumps_append, one, watched.used none, show dumps [⟨.now, instant⟩] = 0 from rfl]
    omega
  judged verdict some := @Judged.behind platform cli last last' (⟨.now, instant⟩ :: front) events verdict
    (watched.judged verdict some) clear known

/-- A verdict on the screen of the round. -/
theorem watched_of_judge {verdict : Verdict} {screen : Text × Text} (before : instant < deadline)
    (one : dumps front = 1) (pause : slept front = cli.interval * 1000) (shown : screens front = [screen])
    (decides : judge platform cli screen = some verdict) (blank : Blank tail) :
    Watched platform cli deadline (rounds + 1) last (some verdict) (⟨.now, instant⟩ :: (front ++ tail)) where
  paced := Paced.round (Or.inl blank.shows.2.2) before one pause
  used := nofun
  judged other same := by
    obtain rfl := Option.some.inj same
    have all : screens (⟨.now, instant⟩ :: (front ++ tail)) = [screen] := by
      show screens (front ++ tail) = _
      rw [screens_append, shown, blank.shows.1, List.append_nil]
    constructor
    · rw [all, List.findSome?_cons, decides]
      rfl
    · rw [all]
      exact List.forall_mem_nil _

/-- The deadline. -/
theorem watched_of_timeout (blank : Blank tail) :
    Watched platform cli deadline (rounds + 1) last (some (.timeout last)) (⟨.now, instant⟩ :: tail) where
  paced := Or.inl (show dumps tail = 0 from blank.shows.2.2)
  used := nofun
  judged other same := by
    obtain rfl := Option.some.inj same
    have read : screens (⟨.now, instant⟩ :: tail) = [] := blank.shows.1
    have taken : shots (⟨.now, instant⟩ :: tail) = [] := blank.shows.2.1
    constructor
    · rw [read, taken, List.getLast?_nil, Option.none_or]
      rfl
    · rw [read]
      exact List.forall_mem_nil _

/-- A verdict behind a shutdown. -/
theorem shutdown_watched {keep : Bool} {verdict : Verdict}
    (holds : ∀ tail, Blank tail →
      Watched platform cli deadline rounds last (some verdict) (events ++ tail)) :
    Triple (fun _ _ => True) (· = past ++ events) (shutdown keep >>= fun _ => pure (some verdict))
      (fun value later => ∃ events, later = past ++ events ∧ Watched platform cli deadline rounds last value events)
      fun later => ∃ events, later = past ++ events ∧ Paced deadline (cli.interval * 1000) events := by
  refine Triple.bind ((shutdown_shows keep _).mono (fun _ => id) (fun _ _ => id) fun _ => False.elim) fun _ => ?_
  refine Triple.pure fun later shown => ?_
  obtain ⟨tail, rfl, blank⟩ := shown
  exact ⟨events ++ tail, List.append_assoc _ _ _, holds tail blank⟩

/-- A round without a verdict, and the rounds behind it. -/
theorem Watched.goesOn {program : Io (Option Verdict)} (before : instant < deadline) (one : dumps front = 1)
    (pause : slept front = cli.interval * 1000) (clear : ∀ screen ∈ screens front, judge platform cli screen = none)
    (known : last' = (shots front).getLast?.or last)
    (rest : Triple (fun _ _ => True) (· = past ++ ⟨.now, instant⟩ :: front) program
      (fun value later => ∃ events, later = past ++ ⟨.now, instant⟩ :: front ++ events ∧
        Watched platform cli deadline rounds last' value events)
      fun later => ∃ events, later = past ++ ⟨.now, instant⟩ :: front ++ events ∧
        Paced deadline (cli.interval * 1000) events) :
    Triple (fun _ _ => True) (· = past ++ ⟨.now, instant⟩ :: front) program
      (fun value later => ∃ events, later = past ++ events ∧
        Watched platform cli deadline (rounds + 1) last value events)
      fun later => ∃ events, later = past ++ events ∧ Paced deadline (cli.interval * 1000) events := by
  refine rest.mono (fun _ => id) (fun value later ends => ?_) fun later ends => ?_
  · obtain ⟨events, rfl, watched⟩ := ends
    exact ⟨⟨.now, instant⟩ :: (front ++ events), by simp, watched.round before one pause clear known⟩
  · obtain ⟨events, rfl, paced⟩ := ends
    exact ⟨⟨.now, instant⟩ :: (front ++ events), by simp, paced.round before one pause⟩

/-- A panic in a round. -/
theorem paced_of_panic (before : instant < deadline) (one : dumps front = 1)
    (pause : slept front = cli.interval * 1000) :
    Paced deadline (cli.interval * 1000) (⟨.now, instant⟩ :: front) := by
  have paced : Paced deadline (cli.interval * 1000) (⟨.now, instant⟩ :: (front ++ [])) :=
    Paced.round (Or.inl rfl) before one pause
  rwa [List.append_nil] at paced

end Watch

/-- What was caught is the result. -/
theorem caught_eq_ok {α : Type} {result other : Fallible α} (same : caught result = .ok other) : result = other := by
  cases result with
  | ok value => exact Except.ok.inj same
  | error failure =>
    cases failure with
    | error chain => exact Except.ok.inj same
    | panic => cases same

/-- A pause, and what does not sleep behind it. -/
theorem slept_pause {millis : Nat} {answer : Answer (.sleep millis)} {rest : History} (awake : slept rest = 0) :
    slept (⟨.sleep millis, answer⟩ :: rest) = millis := by
  show millis + slept rest = millis
  rw [awake, Nat.add_zero]

theorem eventScreen_read {png txt : Text} {answer : Except String Output} (reading : ocrText answer = .ok txt) :
    eventScreen ⟨.tesseract png, answer⟩ = some (png, txt) := by
  show (ocrText answer).toOption.map _ = _
  rw [reading]
  rfl

theorem eventScreen_unread {png : Text} {answer : Except String Output} {failure : Failure}
    (reading : ocrText answer = .error failure) : eventScreen ⟨.tesseract png, answer⟩ = none := by
  show (ocrText answer).toOption.map _ = _
  rw [reading]
  rfl

theorem attempt_screendump (png : Text) :
    Exchange.attempt (screendump png) = Exchange.ask (.screendump png) fun answer => caught answer := rfl

theorem attempt_ocr (png : Text) :
    Exchange.attempt (ocr png) = Exchange.ask (.tesseract png) fun answer => caught (ocrText answer) := rfl

/-- **The loop, whatever it is answered.** -/
theorem watch_watched (platform : Platform) (cli : Cli) (work : Text) (deadline rounds shotIdx : Nat)
    (last : Option Text) (past : History) :
    Triple (fun _ _ => True) (· = past) (watch platform cli work deadline rounds shotIdx last)
      (fun value later => ∃ events, later = past ++ events ∧
        Watched platform cli deadline rounds last value events)
      fun later => ∃ events, later = past ++ events ∧ Paced deadline (cli.interval * 1000) events := by
  induction rounds generalizing shotIdx last past with
  | zero =>
    rintro _ rfl
    exact ⟨[], (List.append_nil _).symm, Or.inl rfl, fun _ => rfl, nofun⟩
  | succ rounds ih =>
    rw [watch]
    refine Triple.askThen trivial (fun (instant : Nat) value same => ?_) fun _ _ fails => by cases fails
    obtain rfl := Except.ok.inj same
    by_cases before : instant < deadline
    swap
    · rw [if_neg before]
      exact shutdown_watched fun tail blank => watched_of_timeout blank
    rw [if_pos before]
    refine Triple.askThen trivial (fun slept _ _ => ?_) fun _ _ fails => by cases fails
    dsimp only
    generalize (shotIdx + 1) % 2 ^ 32 = shotIdx
    generalize join work (shotName shotIdx ".png") = png
    generalize join work (shotName shotIdx ".txt") = file
    -- the picture
    rw [attempt_screendump]
    refine Triple.askThen trivial (fun answer dumped caught => ?_) fun answer _ _ => ?_
    swap
    · exact ⟨[⟨.now, instant⟩, ⟨.sleep _, slept⟩, ⟨.screendump png, answer⟩], by simp,
        paced_of_panic before rfl (slept_pause rfl)⟩
    obtain rfl : answer = dumped := caught_eq_ok caught
    cases answer with
    | error failure =>
      have skips := @Watched.goesOn platform cli deadline rounds instant last last
        [⟨.sleep _, slept⟩, ⟨.screendump png, .error failure⟩] past _ before rfl (slept_pause rfl)
        (List.forall_mem_nil _) rfl (ih shotIdx last _)
      exact skips.mono (fun _ same => same.trans (by simp)) (fun _ _ => id) fun _ => id
    | ok taken =>
      -- its text
      simp only [attempt_ocr]
      refine Triple.askThen trivial (fun answer read caught => ?_) fun answer _ _ => ?_
      swap
      · exact ⟨[⟨.now, instant⟩, ⟨.sleep _, slept⟩, ⟨.screendump png, .ok taken⟩, ⟨.tesseract png, answer⟩],
          by simp, paced_of_panic before rfl (slept_pause rfl)⟩
      have reading : ocrText answer = read := caught_eq_ok caught
      cases read with
      | error failure =>
        have unread : screens [⟨.sleep (cli.interval * 1000), slept⟩, ⟨.screendump png, .ok taken⟩,
            ⟨.tesseract png, answer⟩] = [] := by
          rw [screens, List.filterMap_cons_none rfl, List.filterMap_cons_none rfl,
            List.filterMap_cons_none (eventScreen_unread reading), List.filterMap_nil]
        have skips := @Watched.goesOn platform cli deadline rounds instant last (some png)
          [⟨.sleep _, slept⟩, ⟨.screendump png, .ok taken⟩, ⟨.tesseract png, answer⟩] past _ before rfl
          (slept_pause rfl) (by rw [unread]; exact List.forall_mem_nil _) rfl (ih shotIdx (some png) _)
        exact skips.mono (fun _ same => same.trans (by simp)) (fun _ _ => id) fun _ => id
      | ok txt =>
        refine Triple.askThen trivial (fun written _ _ => ?_) fun _ _ fails => by cases fails
        have shown : screens [⟨.sleep (cli.interval * 1000), slept⟩, ⟨.screendump png, .ok taken⟩,
            ⟨.tesseract png, answer⟩, ⟨.writeFile file txt, written⟩]
            = [(png, txt)] := by
          rw [screens, List.filterMap_cons_none rfl, List.filterMap_cons_none rfl,
            List.filterMap_cons_some (eventScreen_read reading), List.filterMap_cons_none rfl, List.filterMap_nil]
        cases decides : judge platform cli (png, txt) with
        | some verdict =>
          have stops := @shutdown_watched platform cli deadline (rounds + 1) last
            [⟨.now, instant⟩, ⟨.sleep _, slept⟩, ⟨.screendump png, .ok taken⟩, ⟨.tesseract png, answer⟩,
              ⟨.writeFile _ txt, written⟩] past cli.keepRunning verdict
            fun tail blank => watched_of_judge before rfl (slept_pause rfl) shown decides blank
          exact stops.mono (fun _ same => same.trans (by simp)) (fun _ _ => id) fun _ => id
        | none =>
          have skips := @Watched.goesOn platform cli deadline rounds instant last (some png)
            [⟨.sleep _, slept⟩, ⟨.screendump png, .ok taken⟩, ⟨.tesseract png, answer⟩, ⟨.writeFile _ txt, written⟩]
            past _ before rfl (slept_pause rfl)
            (by rw [shown]; exact List.forall_mem_singleton.mpr decides) rfl (ih shotIdx (some png) _)
          exact skips.mono (fun _ same => same.trans (by simp)) (fun _ _ => id) fun _ => id

/-! ### The run -/

section Run

variable {platform : Platform} {cli : Cli} {rounds : Nat}

theorem spawn_blank (cli : Cli) : Program.Asks (fun call => call.blank = true) (spawn cli) := by
  refine asks_bind (asks_ask rfl) fun there => ?_
  split
  · exact asks_bail _
  refine asks_bind (asks_ask rfl) fun _ => asks_bind (asks_ask rfl) fun _ => asks_bind (asks_ask rfl) fun _ => ?_
  refine asks_bind (workDir_asks (by rfl) (fun _ => rfl) cli) fun work => ?_
  refine asks_bind (createTarget_asks (fun _ => rfl) (fun _ _ => rfl) cli _) fun _ => ?_
  refine asks_bind (asks_ask rfl) fun _ => asks_bind (asks_ask rfl) fun _ => asks_bind (asks_ask rfl) fun _ => ?_
  exact asks_bind (asks_ask rfl) fun _ => asks_pure _

theorem session_judged (platform : Platform) (rounds : Nat) (cli : Cli) (work : Text) :
    Triple (fun _ _ => True) Blank (session platform rounds cli work)
      (fun value later => ∀ verdict, value = some verdict → Judged platform cli none later verdict)
      fun _ => True := by
  have any : ∀ {α : Type} {program : Io α}, Program.Asks (fun call => call.blank = true) program →
      Triple (fun _ _ => True) Blank program (fun _ => Blank) fun _ => True :=
    fun asks => (blank_keeps asks).mono (fun _ => id) (fun _ _ => id) fun _ _ => trivial
  have waits : Program.Asks (fun call => call.blank = true)
      (waitForMonitor rounds (join work "monitor.sock".toList) 15000) :=
    waitForMonitor_asks (fun _ => rfl) (fun _ _ => rfl) (by rfl) (fun _ => rfl) _ _ _
  refine Triple.bind (any (asks_context waits)) fun monitor => ?_
  split
  · exact Triple.pure fun _ _ => nofun
  refine Triple.bind (any (asks_context (asks_ask rfl))) fun _ => Triple.bind (any (asks_ask rfl)) fun instant => ?_
  refine Triple.bind (any (asks_lift _)) fun deadline past blank => ?_
  refine (watch_watched platform cli work deadline rounds 0 none past past rfl).mono fun result later ends => ?_
  cases result with
  | error failure => trivial
  | ok value =>
    obtain ⟨events, rfl, watched⟩ := ends
    obtain ⟨unread, untaken, -⟩ := blank.shows
    rintro verdict rfl
    refine (watched.judged verdict rfl).behind ?_ ?_
    · rw [unread]
      exact List.forall_mem_nil _
    · rw [untaken, List.getLast?_nil, Option.none_or]

/-- What the guard returns is what was returned. -/
theorem guarded_returns {keep : Bool} {body : Io (Option Verdict)} {pre : History → Prop}
    {good : Option Verdict → History → Prop} (returns : Triple (fun _ _ => True) pre body good fun _ => True) :
    Triple (fun _ _ => True) pre (guarded keep body) good fun _ => True := by
  refine fun past holds => Program.Upholds.bind ((returns past holds).mono fun result past ends => ?_)
  cases result with
  | ok value => exact ends
  | error failure => exact Program.Upholds.bind (Program.upholds_trivial.mono fun _ _ _ => trivial)

theorem run_judged {trace : History} {verdict : Verdict}
    (traces : Program.Traces (run platform rounds cli) trace (.ok (some verdict))) :
    Judged platform cli none trace verdict := by
  have judges : Triple (fun _ _ => True) Blank (run platform rounds cli)
      (fun value later => ∀ verdict, value = some verdict → Judged platform cli none later verdict)
      fun _ => True := by
    refine Triple.bind ((blank_keeps (spawn_blank cli)).mono (fun _ => id) (fun _ _ => id) fun _ _ => trivial) ?_
    exact fun work => guarded_returns (session_judged platform rounds cli work)
  exact (judges [] (List.forall_mem_nil _)).holds traces verdict rfl

/-- **The verdict of a run** is that of the first screen with a marker, a failure before a success. That screen is
the last one that was read. Without one it is a timeout, with the last picture that was taken. -/
theorem verdict_judged {trace : History} {verdict : Verdict}
    (traces : Program.Traces (run platform rounds cli) trace (.ok (some verdict))) :
    verdict = ((screens trace).findSome? (judge platform cli)).getD (.timeout (shots trace).getLast?) ∧
      ∀ screen ∈ (screens trace).dropLast, judge platform cli screen = none := by
  have judged := run_judged traces
  refine ⟨?_, judged.front⟩
  rw [judged.verdict, Option.or_none]

/-! ### What a pass means -/

/-- The screen shows the marker, in any case of its letters. -/
def Shows (platform : Platform) (screen : Text × Text) (marker : String) : Prop :=
  contains marker (platform.toLowercase screen.2) = true

theorem judge_eq_none {screen : Text × Text} (undecided : judge platform cli screen = none) :
    ∀ marker ∈ failMarkers, ¬ Shows platform screen marker := by
  obtain ⟨noFail, -⟩ := Option.or_eq_none_iff.mp undecided
  exact fun marker member => List.find?_eq_none.mp (Option.map_eq_none_iff.mp noFail) marker member

theorem judge_eq_pass {screen : Text × Text} {png : Text} {matched : String}
    (passes : judge platform cli screen = some (.pass png matched)) :
    (∀ marker ∈ failMarkers, ¬ Shows platform screen marker) ∧
      matched ∈ cli.passMarkers ∧ Shows platform screen matched := by
  rcases Option.or_eq_some_iff.mp passes with fails | ⟨noFail, found⟩
  · obtain ⟨marker, _, same⟩ := Option.map_eq_some_iff.mp fails
    cases same
  · obtain ⟨marker, seen, same⟩ := Option.map_eq_some_iff.mp found
    cases same
    have shown := List.find?_some seen
    exact ⟨fun other member => List.find?_eq_none.mp (Option.map_eq_none_iff.mp noFail) other member,
      List.mem_of_find?_eq_some seen, shown⟩

/-- **A run that exits with 0** saw no failure: no screen that was read shows a marker of a failure, and the last
one shows a marker of success. -/
theorem exit_zero_clean {trace : History} {result : Fallible Verdict}
    (traces : Program.Traces (run platform rounds cli) trace (result.map some)) (zero : exitCode result = 0) :
    (∀ screen ∈ screens trace, ∀ marker ∈ failMarkers, ¬ Shows platform screen marker) ∧
      ∃ screen, (screens trace).getLast? = some screen ∧ ∃ marker ∈ cli.passMarkers, Shows platform screen marker := by
  obtain ⟨png, matched, rfl⟩ : ∃ png matched, result = .ok (.pass png matched) := by
    rcases result with (_ | _) | (⟨png, matched⟩ | _ | _)
    · cases zero
    · cases zero
    · exact ⟨png, matched, rfl⟩
    · cases zero
    · cases zero
  obtain ⟨verdict, front⟩ := run_judged traces
  rcases List.eq_nil_or_concat (screens trace) with none | ⟨earlier, last, split⟩
  · rw [none, List.findSome?_nil, Option.getD_none] at verdict
    cases verdict
  rw [List.concat_eq_append] at split
  rw [split, List.dropLast_concat] at front
  rw [split, List.findSome?_append, List.findSome?_eq_none_iff.mpr front, Option.none_or, List.findSome?_singleton]
    at verdict
  cases decided : judge platform cli last with
  | none =>
    rw [decided, Option.getD_none] at verdict
    cases verdict
  | some final =>
    rw [decided, Option.getD_some] at verdict
    obtain ⟨noFail, member, shown⟩ := judge_eq_pass (decided.trans (congrArg some verdict.symm))
    rw [split]
    refine ⟨fun screen inside => ?_, last, List.getLast?_concat, matched, member, shown⟩
    rcases List.mem_append.mp inside with before | here
    · exact judge_eq_none (front screen before)
    · rw [List.mem_singleton.mp here]
      exact noFail

/-! ### The time of a run -/

/-- The rounds of waiting for the monitor. -/
theorem waitFrom_polled (path : Text) (start timeout rounds : Nat) (past : History) :
    Triple (fun _ _ => True) (· = past) (waitFrom path start timeout rounds)
      (fun value later => ∃ events, later = past ++ events ∧ Blank events ∧
        (value = none → Polled (fun instant => instant - start ≤ timeout) 200 rounds events))
      fun later => ∃ events, later = past ++ events ∧ Blank events := by
  induction rounds generalizing past with
  | zero =>
    rintro _ rfl
    exact ⟨[], (List.append_nil _).symm, List.forall_mem_nil _, fun _ => Or.inl rfl⟩
  | succ rounds ih =>
    rw [waitFrom]
    refine Triple.askThen trivial (fun connected value same => ?_) fun _ _ fails => by cases fails
    obtain rfl := Except.ok.inj same
    have tried : Blank [⟨.connect path, connected⟩] := List.forall_mem_singleton.mpr rfl
    cases connected with
    | ok stream =>
      refine Triple.askThen trivial (fun answer _ _ => Triple.pure fun later same => ?_) fun answer _ _ => ?_
      · exact ⟨[⟨.connect path, .ok stream⟩, ⟨.setTimeouts 15 5, answer⟩], same.trans (by simp),
          tried.append rfl, nofun⟩
      · exact ⟨[⟨.connect path, .ok stream⟩, ⟨.setTimeouts 15 5, answer⟩], by simp, tried.append rfl⟩
    | error text =>
      refine Triple.askThen trivial (fun (instant : Nat) value same => ?_) fun _ _ fails => by cases fails
      obtain rfl := Except.ok.inj same
      by_cases passed : timeout < instant - start
      · rw [if_pos passed]
        refine Triple.bail fun later same => ?_
        exact ⟨[⟨.connect path, .error text⟩, ⟨.now, instant⟩], same.trans (by simp), tried.append rfl⟩
      rw [if_neg passed]
      refine Triple.askThen trivial (fun slept _ _ => ?_) fun _ _ fails => by cases fails
      have round : Blank [⟨.connect path, .error text⟩, ⟨.now, instant⟩, ⟨.sleep 200, slept⟩] :=
        Blank.append (tried.append rfl) rfl
      refine (ih _).mono (fun _ => id) (fun value later ends => ?_) fun later ends => ?_
      · obtain ⟨events, rfl, blank, polled⟩ := ends
        refine ⟨_, ?_, round.join blank, fun none => ?_⟩
        · simp
        exact @Polled.round _ 200 rounds instant [⟨.connect path, .error text⟩] [⟨.sleep 200, slept⟩] events
          (polled none) (not_lt.mp passed) (slept_pause rfl)
      · obtain ⟨events, rfl, blank⟩ := ends
        exact ⟨_, by simp, round.join blank⟩

theorem waitForMonitor_polled (rounds : Nat) (path : Text) :
    Triple (fun _ _ => True) Blank (waitForMonitor rounds path 15000)
      (fun value later => Blank later ∧ (value = none → Honest later → rounds ≤ 76)) Blank := by
  intro past blank
  refine Triple.askThen trivial (fun (start : Nat) value same => ?_) (fun _ _ fails => by cases fails) past rfl
  obtain rfl := Except.ok.inj same
  refine (waitFrom_polled path start 15000 rounds _).mono (fun _ => id) (fun value later ends => ?_)
    fun later ends => ?_
  · obtain ⟨events, rfl, quiet, polled⟩ := ends
    refine ⟨(blank.append rfl).join quiet, fun none honest => ?_⟩
    rw [List.append_assoc] at honest
    rcases (polled none).within honest with zero | ⟨instant, within, time⟩
    · omega
    · omega
  · obtain ⟨events, rfl, quiet⟩ := ends
    exact (blank.append rfl).join quiet

/-- With an honest clock, each picture but the first was taken a pause after another within the timeout. -/
def OnTime (cli : Cli) (past : History) : Prop :=
  Honest past → dumps past = 0 ∨ (dumps past - 1) * cli.interval < cli.timeout

theorem Blank.onTime {past : History} (blank : Blank past) (cli : Cli) : OnTime cli past :=
  fun _ => Or.inl blank.shows.2.2

theorem Paced.onTime {front events : History} {instant : Nat} (blank : Blank front)
    (paced : Paced (instant + cli.timeout * 1000) (cli.interval * 1000) events) :
    OnTime cli (front ++ ⟨.now, instant⟩ :: events) := by
  intro honest
  have same : dumps (front ++ ⟨.now, instant⟩ :: events) = dumps events := by
    show dumps (front ++ ([⟨.now, instant⟩] ++ events)) = _
    rw [dumps_append, dumps_append, blank.shows.2.2, show dumps [⟨.now, instant⟩] = 0 from rfl, Nat.zero_add,
      Nat.zero_add]
  rw [same]
  rcases Polled.within paced honest with none | ⟨stop, inTime, time⟩
  · exact Or.inl none
  · rw [← Nat.mul_assoc] at time
    exact Or.inr (by omega)

theorem session_onTime (platform : Platform) (rounds : Nat) (cli : Cli) (work : Text) :
    Triple (fun _ _ => True) Blank (session platform rounds cli work)
      (fun value later => OnTime cli later ∧ (value = none → Honest later → rounds ≤ 76 ∨ dumps later = rounds))
      (OnTime cli) := by
  have keeps : ∀ {α : Type} {program : Io α}, Program.Asks (fun call => call.blank = true) program →
      Triple (fun _ _ => True) Blank program (fun _ => Blank) (OnTime cli) :=
    fun asks => (blank_keeps asks).mono (fun _ => id) (fun _ _ => id) fun _ blank => blank.onTime cli
  have waits := (waitForMonitor_polled rounds (join work "monitor.sock".toList)).mono (fun _ => id) (fun _ _ => id)
    fun _ blank => blank.onTime cli
  refine Triple.bind (Triple.context waits) fun monitor => ?_
  split
  · exact Triple.pure fun later held => ⟨held.1.onTime cli, fun _ honest => Or.inl (held.2 rfl honest)⟩
  refine Triple.bind ((keeps (asks_context (asks_ask rfl))).mono (fun _ held => held.1) (fun _ _ => id) fun _ => id)
    fun _ => ?_
  intro past blank
  refine Triple.askThen trivial (fun (instant : Nat) value same => ?_) (fun _ _ fails => by cases fails) past rfl
  obtain rfl := Except.ok.inj same
  refine Triple.liftThen (fun deadline named => ?_) ?_
  swap
  · rintro _ rfl
    exact (blank.append rfl).onTime cli
  have late : deadline = instant + cli.timeout * 1000 := by
    rw [deadlineOf] at named
    split at named
    · exact (Except.ok.inj named).symm
    · cases named
  subst late
  refine (watch_watched platform cli work _ rounds 0 none _).mono (fun _ => id) (fun value later ends => ?_)
    fun later ends => ?_
  · obtain ⟨events, rfl, watched⟩ := ends
    rw [List.append_assoc, List.singleton_append]
    refine ⟨watched.paced.onTime blank, fun none _ => Or.inr ?_⟩
    show dumps (past ++ ([⟨.now, instant⟩] ++ events)) = rounds
    rw [dumps_append, dumps_append, blank.shows.2.2, watched.used none, show dumps [⟨.now, instant⟩] = 0 from rfl]
    omega
  · obtain ⟨events, rfl, paced⟩ := ends
    rw [List.append_assoc, List.singleton_append]
    exact paced.onTime blank

/-- The end of QEMU takes no picture. -/
theorem guarded_onTime {keep : Bool} {body : Io (Option Verdict)} {pre : History → Prop}
    {good : Option Verdict → History → Prop}
    (times : Triple (fun _ _ => True) pre body good (OnTime cli)) :
    Triple (fun _ _ => True) pre (guarded keep body) good (OnTime cli) := by
  refine fun past holds => Program.Upholds.bind ((times past holds).mono fun result later ends => ?_)
  cases result with
  | ok value => exact ends
  | error failure =>
    refine Program.Upholds.bind ((shutdown_shows keep later later rfl).mono fun dropped last shown => ?_)
    cases dropped with
    | error failure => exact shown.elim
    | ok value =>
      obtain ⟨tail, rfl, blank⟩ := shown
      intro honest
      rw [dumps_append, blank.shows.2.2, Nat.add_zero]
      exact ends honest.of_append

/-- **A run keeps to its time**: with a clock that goes on while the tool sleeps, every picture but the first came a
pause after another within the timeout, whatever became of the run. With 77 rounds, and as many as the timeout
has pauses, the run returns or fails. -/
theorem run_paced {trace : History} {result : Fallible (Option Verdict)}
    (traces : Program.Traces (run platform rounds cli) trace result) (honest : Honest trace) :
    (dumps trace = 0 ∨ (dumps trace - 1) * cli.interval < cli.timeout) ∧
      (76 < rounds → cli.timeout ≤ (rounds - 1) * cli.interval → result ≠ .ok none) := by
  have times : Triple (fun _ _ => True) Blank (run platform rounds cli)
      (fun value later => OnTime cli later ∧ (value = none → Honest later → rounds ≤ 76 ∨ dumps later = rounds))
      (OnTime cli) := by
    refine Triple.bind ((blank_keeps (spawn_blank cli)).mono (fun _ => id) (fun _ _ => id) fun _ blank =>
      blank.onTime cli) fun work => ?_
    exact guarded_onTime (session_onTime platform rounds cli work)
  have ends := (times [] (List.forall_mem_nil _)).holds traces
  cases result with
  | error failure => exact ⟨ends honest, fun _ _ => nofun⟩
  | ok value =>
    obtain ⟨onTime, used⟩ := ends
    refine ⟨onTime honest, fun enough pauses nothing => ?_⟩
    rcases used (Except.ok.inj nothing) honest with few | all
    · omega
    · rcases onTime honest with none | early
      · omega
      · rw [all] at early
        omega

end Run

/-! ### A run on a machine with a clock -/

/-- A machine whose clock goes on while the tool sleeps has honest runs. -/
theorem honest_on {σ α : Type} {machine : Machine Call Answer σ} (clock : σ → Nat)
    (reads : ∀ state, (machine .now state).1 = clock state)
    (goesOn : ∀ call state, clock state + call.slept ≤ clock (machine call state).2)
    (program : Program Call Answer α) (state : σ) :
    Honest (program.asked machine state) ∧
      ∀ (mid : History) (second : Nat) (after : History), program.asked machine state = mid ++ ⟨.now, second⟩ :: after →
        clock state + slept mid ≤ second := by
  induction program generalizing state with
  | done value => exact ⟨fun _ _ _ _ _ none => by simp [Program.asked] at none,
      fun _ _ _ none => by simp [Program.asked] at none⟩
  | ask call next ih =>
    obtain ⟨honest, later⟩ := ih (machine call state).1 (machine call state).2
    refine ⟨fun before first mid second after split => ?_, fun mid second after split => ?_⟩
    · cases before with
      | nil =>
        obtain ⟨same, rest⟩ := List.cons.inj split
        obtain rfl : call = .now := congrArg Event.call same
        have start : first = clock state := (eq_of_heq (Event.mk.inj same).2).symm.trans (reads state)
        have passed := later mid second after rest
        have time : clock state + 0 ≤ _ := goesOn .now state
        omega
      | cons event before => exact honest before first mid second after (List.cons.inj split).2
    · have time := goesOn call state
      cases mid with
      | nil =>
        obtain ⟨same, -⟩ := List.cons.inj split
        obtain rfl : call = .now := congrArg Event.call same
        have stop : second = clock state := (eq_of_heq (Event.mk.inj same).2).symm.trans (reads state)
        exact stop.symm.le
      | cons event mid =>
        obtain ⟨rfl, rest⟩ := List.cons.inj split
        have passed := later mid second after rest
        show clock state + (call.slept + slept mid) ≤ second
        omega

def sampleCli : Cli where
  image := "stick.img".toList
  bootMedia := .disk
  flavor := .windowsXp
  timeout := 900
  interval := 15
  outDir := some "out".toList
  targetSize := "8G".toList
  targetBus := .ide
  memMib := 512
  machine := "pc".toList
  keepRunning := false

def samplePlatform : Platform := ⟨lower, 2 ^ 63⟩

/-- Every tool succeeds, and the screen shows the setup. The state is the clock. -/
def sampleMachine : Machine Call Answer Nat
  | .pathExists _, clock => (true, clock)
  | .version _, clock => (.ok true, clock)
  | .tempDir, clock => ("tmp".toList, clock)
  | .createDirAll _, clock => (.ok (), clock)
  | .qemuImg _ _, clock => (.ok ⟨true, [], [], []⟩, clock)
  | .removeFile _, clock => (.ok (), clock)
  | .createFile _, clock => (.ok (), clock)
  | .spawnQemu _, clock => (.ok (), clock)
  | .connect _, clock => (.ok (), clock)
  | .setTimeouts _ _, clock => (.ok (), clock)
  | .now, clock => (clock, clock)
  | .sleep millis, clock => ((), clock + millis)
  | .handshake, clock => (.ok (), clock)
  | .screendump _, clock => (.ok (), clock)
  | .tesseract _, clock => (.ok ⟨true, [], toUtf8 "Welcome to Setup".toList, []⟩, clock)
  | .writeFile _ _, clock => (.ok (), clock)
  | .killQemu, clock => (.ok (), clock)
  | .waitQemu, clock => (.ok (), clock)

theorem sampleRun_passes : (Program.on sampleMachine (run samplePlatform 77 sampleCli) 0).1
    = .ok (some (.pass "out/shot-0001.png".toList "welcome to setup")) := by
  decide +kernel

/-- A run that passes on the first screen. -/
def sampleTrace : History := Program.asked sampleMachine (run samplePlatform 77 sampleCli) 0

theorem sampleTrace_traces : Program.Traces (run samplePlatform 77 sampleCli) sampleTrace
    (.ok (some (.pass "out/shot-0001.png".toList "welcome to setup"))) := by
  have traces := Program.on_traces sampleMachine (run samplePlatform 77 sampleCli) 0
  rwa [sampleRun_passes] at traces

theorem sampleTrace_honest : Honest sampleTrace := by
  have goesOn : ∀ call (clock : Nat), clock + call.slept ≤ (sampleMachine call clock).2 := by
    intro call clock
    cases call <;> exact Nat.le_refl _
  exact (@honest_on Nat _ sampleMachine id (fun _ => rfl) goesOn (run samplePlatform 77 sampleCli) 0).1

theorem verdict_judged_sample : Verdict.pass "out/shot-0001.png".toList "welcome to setup"
    = ((screens sampleTrace).findSome? (judge samplePlatform sampleCli)).getD (.timeout (shots sampleTrace).getLast?) :=
  (verdict_judged sampleTrace_traces).1

theorem exit_zero_clean_sample :
    (∀ screen ∈ screens sampleTrace, ∀ marker ∈ failMarkers, ¬ Shows samplePlatform screen marker) ∧
      ∃ screen, (screens sampleTrace).getLast? = some screen ∧
        ∃ marker ∈ sampleCli.passMarkers, Shows samplePlatform screen marker :=
  @exit_zero_clean samplePlatform sampleCli 77 sampleTrace
    (.ok (.pass "out/shot-0001.png".toList "welcome to setup")) sampleTrace_traces rfl

theorem run_paced_sample : dumps sampleTrace = 0 ∨ (dumps sampleTrace - 1) * 15 < 900 :=
  (run_paced sampleTrace_traces sampleTrace_honest).1

/-- The sample run kills QEMU. -/
theorem qemu_ended_sample : Ended false sampleTrace := (qemu_ended sampleTrace_traces).1 _ rfl

end Bootsmith.Eval.Harness
