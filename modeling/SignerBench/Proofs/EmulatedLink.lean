import SignerBench.Emulator.Session
import SignerBench.Proofs.AnyLink
import SignerBench.Proofs.Records
import SignerBench.Proofs.Turns

namespace SignerBench.Emulator

open App (Alike)
open App.Script (Fault)
open Dialogue (Half World)

/-- The text is the one of the value, up to blanks and the way in which characters are written. -/
def Holds (content : Bytes) (v : Json) : Prop := Json.tokens content = Json.words v

/-- The response brings these bytes, as hexadecimal text with letters of either case. -/
inductive Tells (raw : Bytes) : Web.Response → Prop where
  | body {content : Bytes} {text : String} (holds : Holds content (.object [("data", .text text)]))
    (hex : text.toLower = Hex.encode raw) : Tells raw (.body content)

/-- The response brings no bytes, and this is what is wrong with it. -/
inductive Spoiled : Web.Response → Error → Prop where
  | hex {content : Bytes} {text : String} {e : HexError} (holds : Holds content (.object [("data", .text text)]))
    (unread : Hex.decode text = .error e) : Spoiled (.body content) (.hex e)
  | missing {content : Bytes} {entries : Json.Entries} (holds : Holds content (.object entries))
    (other : ∀ e ∈ entries, e.1 ≠ "data") : Spoiled (.body content) (.reply (.mismatch (.missingField "data")))

/-- Only `data` is looked at. Its text comes back as it was encoded, whatever escapes it was written with. -/
theorem readBytes_data {content : Bytes} {text : String} (holds : Holds content (.object [("data", .text text)])) :
    Json.readBytes apduRecord.read content = .ok (text, ()) := by
  have faithful : apduRecord.fields.Faithful 126 := ⟨Json.Field.faithful_text "data" 126, trivial⟩
  have distinct : apduRecord.fields.names.Nodup := List.pairwise_singleton _ _
  rw [Json.readBytes_of_tokens holds]
  exact Json.Record.read_write faithful distinct (text, ())

/-- Other fields do not make up for `data`, and none of them is an error. -/
theorem readBytes_no_data {content : Bytes} {entries : Json.Entries} (holds : Holds content (.object entries))
    (other : ∀ e ∈ entries, e.1 ≠ "data") :
    Json.readBytes apduRecord.read content = .error (.mismatch (.missingField "data")) := by
  have hother : ∀ e ∈ entries, e.1 ∉ apduRecord.fields.names := by
    intro e he h
    exact other e he (List.mem_singleton.mp h)
  have hslots : apduRecord.fields.readEntries 126 apduRecord.fields.empty (Json.draftEntries entries) =
      .ok apduRecord.fields.empty := Json.Fields.readEntries_other hother _
  rw [Json.readBytes_of_tokens holds]
  change (apduRecord.fields.readEntries 126 apduRecord.fields.empty (Json.draftEntries entries) >>= fun slots =>
    Json.Ending.close () .closed >>= fun _ => apduRecord.fields.finish slots) = _
  rw [hslots]
  rfl

/-- The letter case of the answer is lost here, and an answer of fewer than two bytes is invalid. -/
theorem readExchange_told {raw : Bytes} {r : Web.Response} (base : String) (c : Apdu.Command) (tells : Tells raw r) :
    readExchange base c r = match Apdu.Answer.ofBytes? raw with
      | some a => .ok a
      | none => .error .invalidAnswer := by
  obtain ⟨holds, hex⟩ := tells
  have hcontent (content : Bytes) : readExchange base c (.body content) = readAnswer content := rfl
  have hdecode := Hex.decode_eq_ok_iff.mpr hex
  cases hraw : Apdu.Answer.ofBytes? raw <;> simp [hcontent, readAnswer, readBytes_data holds, hdecode, hraw]

theorem readExchange_spoiled {r : Web.Response} {e : Error} (base : String) (c : Apdu.Command) (spoiled : Spoiled r e) :
    readExchange base c r = .error e := by
  have hcontent (content : Bytes) : readExchange base c (.body content) = readAnswer content := rfl
  cases spoiled with
  | hex holds unread => simp [hcontent, readAnswer, readBytes_data holds, unread]
  | missing holds other => simp [hcontent, readAnswer, readBytes_no_data holds other]

abbrev Posts := List (String × Option Json)

def post (base : String) (c : Apdu.Command) : String × Option Json :=
  (base ++ "/apdu", some (.object [("data", .text (Hex.encode c.bytes))]))

def service (respond : Nat → Web.Response) : World Ask Reply Nat Posts where
  reply
    | .call base c, posts => (some (respond posts.length), posts ++ [(base ++ c.target, c.body)])
    | _, posts => (none, posts)
  pause _ posts := posts

def answer (base : String) (respond : Nat → Web.Response) (c : Apdu.Command) (posts : Posts) :
    Except Error Apdu.Answer × Posts :=
  (readExchange base c (respond posts.length), posts ++ [post base c])

def linkError (behind : Error) : Fault → Error
  | .short => .invalidAnswer
  | .exhausted | .told _ => behind

section

variable {α : Type} {base : String} {respond : Nat → Web.Response} {posts : Posts} {raw : Bytes} {behind : Error}

/-- One exchange posts once, and only the number of posts before it decides which response it gets. -/
theorem exchange_on_answer (c : Apdu.Command) :
    (App.exchange c : App.Link Error Apdu.Answer).on (answer base respond) posts =
      ((readExchange base c (respond posts.length)).mapError .transport, posts ++ [post base c]) := by
  have hquery : (Attempt.query c : App.Link Error (Except Error Apdu.Answer)).on (answer base respond) posts =
      (.ok (readExchange base c (respond posts.length)), posts ++ [post base c]) := rfl
  refine (Attempt.on_bind hquery).trans ?_
  cases readExchange base c (respond posts.length) <;> rfl

theorem plain_exhausted (c : Apdu.Command) (next : Apdu.Answer → App.Link Fault α) (sent : List Apdu.Command) :
    App.Script.run (App.exchange c >>= next) ⟨[], sent⟩ = (.error (.transport .exhausted), ⟨[], c :: sent⟩) :=
  Attempt.on_bind_error (App.Script.exchange_on c [] sent)

/-- The command is sent before the answer is looked at, so it counts as sent even if the answer is too short. -/
theorem plain_answered (c : Apdu.Command) (next : Apdu.Answer → App.Link Fault α) (raw : Bytes)
    (rest : List (Except Fault Bytes)) (sent : List Apdu.Command) :
    App.Script.run (App.exchange c >>= next) ⟨.ok raw :: rest, sent⟩ =
      match Apdu.Answer.ofBytes? raw with
      | some a => App.Script.run (next a) ⟨rest, c :: sent⟩
      | none => (.error (.transport .short), ⟨rest, c :: sent⟩) := by
  have hexchange := App.Script.exchange_on c (.ok raw :: rest) sent
  have hreply : App.Script.replyAt (.ok raw :: rest) 0 = App.Script.read raw := rfl
  rw [hreply, App.Script.read] at hexchange
  cases hraw : Apdu.Answer.ofBytes? raw with
  | none =>
    rw [hraw] at hexchange
    exact Attempt.on_bind_error hexchange
  | some a =>
    rw [hraw] at hexchange
    exact Attempt.on_bind hexchange

/-- Nothing of what would come next is posted. -/
theorem emulated_spoiled (c : Apdu.Command) (next : Apdu.Answer → App.Link Error α)
    (spoiled : Spoiled (respond posts.length) behind) :
    (App.exchange c >>= next).on (answer base respond) posts =
      (.error (.transport behind), posts ++ [post base c]) := by
  have hexchange : (App.exchange c : App.Link Error Apdu.Answer).on (answer base respond) posts = _ :=
    exchange_on_answer c
  rw [readExchange_spoiled base c spoiled] at hexchange
  exact Attempt.on_bind_error hexchange

/-- The counterpart of `plain_answered`. The two differ in the name of the error for a short answer only. -/
theorem emulated_answered (c : Apdu.Command) (next : Apdu.Answer → App.Link Error α)
    (tells : Tells raw (respond posts.length)) :
    (App.exchange c >>= next).on (answer base respond) posts =
      match Apdu.Answer.ofBytes? raw with
      | some a => (next a).on (answer base respond) (posts ++ [post base c])
      | none => (.error (.transport .invalidAnswer), posts ++ [post base c]) := by
  have hexchange : (App.exchange c : App.Link Error Apdu.Answer).on (answer base respond) posts = _ :=
    exchange_on_answer c
  rw [readExchange_told base c tells] at hexchange
  cases hraw : Apdu.Answer.ofBytes? raw with
  | none =>
    rw [hraw] at hexchange
    exact Attempt.on_bind_error hexchange
  | some a =>
    rw [hraw] at hexchange
    exact Attempt.on_bind hexchange

theorem map_passOn {ε ε' : Type} (f : ε → ε') (r : Except (App.Error Empty) α) :
    ((r.mapError (App.Error.map Empty.elim)).mapError (App.Error.map f) : Except (App.Error ε') α) =
      r.mapError (App.Error.map Empty.elim) := by
  cases r with
  | ok a => rfl
  | error e =>
    cases e
    case transport cause => exact cause.elim
    all_goals rfl

/-- The second request ends over the emulator as the first one does over a link that is handed these answers, and posts
what the first one sends there. -/
def Refines (base : String) (respond : Nat → Web.Response) (behind : Error) (s : App.Script) (posts : Posts)
    (x : App.Link Fault α) (x' : App.Link Error α) : Prop :=
  ∃ more : List Apdu.Command, (App.Script.run x s).2.sent = more.reverse ++ s.sent ∧
    x'.on (answer base respond) posts =
      ((App.Script.run x s).1.mapError (App.Error.map (linkError behind)), posts ++ more.map (post base))

/-- What is refined behind an exchange is refined with it. -/
theorem Refines.behind_exchange {rest : List (Except Fault Bytes)} {sent : List Apdu.Command} {c : Apdu.Command}
    {next : Apdu.Answer → App.Link Fault α} {next' : Apdu.Answer → App.Link Error α} {a : Apdu.Answer}
    (answered : Apdu.Answer.ofBytes? raw = some a) (tells : Tells raw (respond posts.length))
    (h : Refines base respond behind ⟨rest, c :: sent⟩ (posts ++ [post base c]) (next a) (next' a)) :
    Refines base respond behind ⟨.ok raw :: rest, sent⟩ posts (App.exchange c >>= next) (App.exchange c >>= next') := by
  obtain ⟨more, hsent, hrun⟩ := h
  unfold Refines
  rw [plain_answered, emulated_answered c next' tells, answered]
  refine ⟨c :: more, ?_, ?_⟩
  · rw [List.reverse_cons, List.append_assoc]
    exact hsent
  · rw [List.append_assoc] at hrun
    exact hrun

/-- Each answer is told by the response that is due, so the request goes on in step over both links until it ends. -/
theorem refines_of_alike {x : App.Link Fault α} {x' : App.Link Error α} (alike : Alike x x') {raws : List Bytes}
    {sent : List Apdu.Command} (told : ∀ k raw, raws[k]? = some raw → Tells raw (respond (posts.length + k)))
    (spoiled : (App.Script.run x ⟨raws.map .ok, sent⟩).1 = .error (.transport .exhausted) →
      Spoiled (respond (posts.length + raws.length)) behind) :
    Refines base respond behind ⟨raws.map .ok, sent⟩ posts x x' := by
  induction alike generalizing raws sent posts with
  | result r =>
    refine ⟨[], rfl, ?_⟩
    have hrun : App.Script.run (App.passOn r) ⟨raws.map .ok, sent⟩ =
        (r.mapError (App.Error.map Empty.elim), ⟨raws.map .ok, sent⟩) := rfl
    rw [hrun, map_passOn, List.map_nil, List.append_nil]
    rfl
  | @exchange c next next' _ ih =>
    cases raws with
    | nil =>
      have hplain := plain_exhausted c next sent
      have hspoiled : Spoiled (respond posts.length) behind := spoiled (congrArg Prod.fst hplain)
      refine ⟨[c], ?_, ?_⟩
      · rw [List.map_nil, hplain]
        rfl
      · rw [List.map_nil, hplain]
        exact emulated_spoiled c next' hspoiled
    | cons raw raws =>
      have tells : Tells raw (respond posts.length) := told 0 raw rfl
      have hplain := plain_answered c next raw (raws.map .ok) sent
      have hemulated : (App.exchange c >>= next').on (answer base respond) posts = _ :=
        emulated_answered c next' tells
      rw [List.map_cons] at spoiled ⊢
      cases hraw : Apdu.Answer.ofBytes? raw with
      | none =>
        rw [hraw] at hplain hemulated
        refine ⟨[c], ?_, ?_⟩
        · rw [hplain]
          rfl
        · rw [hplain]
          exact hemulated
      | some a =>
        rw [hraw] at hplain
        rw [hplain] at spoiled
        have hplace (k : Nat) : (posts ++ [post base c]).length + k = posts.length + (k + 1) := by
          rw [List.length_append, List.length_singleton]
          omega
        apply Refines.behind_exchange hraw tells
        apply ih a
        · intro k raw h
          rw [hplace]
          exact told (k + 1) raw h
        · intro h
          rw [hplace]
          exact spoiled h

end

/-- A call over an emulator posts, as lowercase text, just the commands that it sends over a link which is handed the
answers themselves, and ends as it does there. An answer that is too short, or a response without one, is the last one
that it asks for. -/
theorem Session.app_refines (s : Session) (c : App.Call) (raws : List Bytes) (respond : Nat → Web.Response)
    (behind : Error) (told : ∀ k raw, raws[k]? = some raw → Tells raw (respond k))
    (spoiled : (App.Script.run c.link ⟨raws.map .ok, []⟩).1 = .error (.transport .exhausted) →
      Spoiled (respond raws.length) behind) :
    ∃ enough, ∀ n, enough ≤ n → Half.turns (service respond) n (.ofAttempt (s.app c.link)) [] =
      (((App.Script.run c.link ⟨raws.map .ok, []⟩).1.mapError (App.Error.map (linkError behind))).map .settled,
        (App.Script.run c.link ⟨raws.map .ok, []⟩).2.sent.reverse.map (post s.base)) := by
  have alike : Alike (c.link : App.Link Fault c.Result) (c.link : App.Link Error c.Result) := c.alike_link
  have hplace (k : Nat) : ([] : Posts).length + k = k := Nat.zero_add k
  have refines : Refines s.base respond behind ⟨raws.map .ok, []⟩ [] c.link c.link := by
    apply refines_of_alike alike
    · intro k raw h
      rw [hplace]
      exact told k raw h
    · intro h
      rw [hplace]
      exact spoiled h
  obtain ⟨more, hsent, hrun⟩ := refines
  have part (q : Apdu.Command) (posts : Posts) : ∃ r,
      (service respond).reply (.call s.base (.apdu q.bytes)) posts = (some r, (answer s.base respond q posts).2) ∧
        readExchange s.base q r = (answer s.base respond q posts).1 := ⟨respond posts.length, rfl, rfl⟩
  obtain ⟨enough, hturns⟩ := Half.turns_via part c.link.run alike.flat (s.app c.link).run []
  refine ⟨enough, fun n hn => (hturns n hn).trans ?_⟩
  have hend : Dialogue.run (answer s.base respond) c.link.run [] = _ := hrun
  rw [hend, hsent, List.append_nil, List.reverse_reverse, List.nil_append]

def halfByte : Nat → Web.Response
  | 0 => .body (Bytes.ofText (Json.pretty (.object [("data", .text "AB9000")])))
  | _ => .body (Bytes.ofText (Json.pretty (.object [("data", .text "9")])))

def plainSession : Session := ⟨{}, "http://127.0.0.1:5000", none, false⟩

theorem Session.app_refines_half_byte : ∃ enough, ∀ n, enough ≤ n →
    Half.turns (service halfByte) n (.ofAttempt (plainSession.app (App.Call.sign (.forAccount 0) [1] []).link)) [] =
      (.error (.transport (.hex .oddLength)),
        [post plainSession.base ⟨0x80, 0x02, 0, 0, (Account.Path.forAccount 0).bytes⟩,
          post plainSession.base ⟨0x80, 0x02, 2, 0, [1]⟩]) := by
  have hsteps : (App.Call.sign (.forAccount 0) [1] []).steps [.ok [0xab, 0x90, 0x00]] =
      [.piece ⟨0x80, 0x02, 0, 0, (Account.Path.forAccount 0).bytes⟩] ++
        [.lastPiece ⟨0x80, 0x02, 2, 0, [1]⟩ 68 .noSignature] := by
    rfl
  have hstops : App.Script.StopsAt ((App.Call.sign (.forAccount 0) [1] []).steps [.ok [0xab, 0x90, 0x00]])
      [.ok [0xab, 0x90, 0x00]] 1 (.transport .exhausted) := by
    rw [hsteps]
    exact ⟨App.Script.passes_single (App.Step.satisfied_piece rfl rfl), _, rfl, .transport Fault.exhausted⟩
  have hrun := App.Call.run_of_stopsAt hstops
  rw [hsteps] at hrun
  have told (k : Nat) (raw : Bytes) (h : [[0xab, 0x90, 0x00]][k]? = some raw) : Tells raw (halfByte k) := by
    cases k with
    | zero =>
      cases h
      exact .body (Json.tokens_pretty ⟨trivial, trivial⟩) (by decide +kernel)
    | succ k => cases h
  have hhalf : Hex.decode "9" = .error .oddLength := by decide +kernel
  have spoiled : Spoiled (halfByte 1) (.hex .oddLength) := .hex (Json.tokens_pretty ⟨trivial, trivial⟩) hhalf
  obtain ⟨enough, hturns⟩ := app_refines plainSession (.sign (.forAccount 0) [1] []) [[0xab, 0x90, 0x00]] halfByte
    (.hex .oddLength) told fun _ => spoiled
  refine ⟨enough, fun n hn => (hturns n hn).trans ?_⟩
  rw [List.map_singleton, hrun]
  rfl

end SignerBench.Emulator
