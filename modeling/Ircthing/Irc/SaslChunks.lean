/-
This file proves that the chunks of an AUTHENTICATE exchange are put together again.
-/

import Ircthing.Irc.Handshake

namespace Ircthing.Irc.Handshake

open List Base64

variable {env : Env} {h : Handshake} {arg text bytes : Bytes} {args : List Bytes} {mech : SaslMech}

/-- The line of the server that carries a chunk. -/
def challengeLine (arg : Bytes) : IrcMessage := newMsg "AUTHENTICATE" [arg]

/-- The handshake after `handleAuthenticate` of arguments. -/
def fed (env : Env) (h : Handshake) (args : List Bytes) : Handshake :=
  args.foldl (fun h arg => (h.handleAuthenticate env (challengeLine arg)).1) h

/-- The exchange has begun with a mechanism. -/
def Challenged (h : Handshake) (mech : SaslMech) : Prop :=
  h.phase = .authChallenge ∧ h.mech = some mech

theorem takes_chunk (env : Env) (challenged : h.Challenged mech) (long : arg.length = 400)
    (fits : h.challengeBuf.length + arg.length ≤ maxSASLChallenge) :
    h.handleAuthenticate env (challengeLine arg) =
      ({ h with challengeBuf := h.challengeBuf ++ arg }, .quiet) := by
  have other : arg ≠ lit "+" := by
    rintro rfl
    cases long
  have buffered : h.reassemble arg =
      ({ h with challengeBuf := h.challengeBuf ++ arg }, .ok none) := by
    rw [reassemble, if_neg fun refused => not_lt.mpr fits refused.2, if_pos other, if_pos long]
  have here : (challengeLine arg).param 0 = arg := rfl
  simp only [handleAuthenticate, challenged.1, challenged.2, here, buffered]

theorem ends_challenge (challenged : h.Challenged mech)
    (reassembled : h.reassemble arg = ({ h with challengeBuf := [] }, .ok (some text)))
    (decoded : decodeChallenge env text = .ok bytes) :
    h.handleAuthenticate env (challengeLine arg) =
      { h with challengeBuf := [] }.respond env mech bytes := by
  have here : (challengeLine arg).param 0 = arg := rfl
  simp only [handleAuthenticate, challenged.1, challenged.2, here, reassembled, decoded]

theorem ends_chunks (challenged : h.Challenged mech) (short : arg.length ≠ 400)
    (fits : arg = lit "+" ∨ h.challengeBuf.length + arg.length ≤ maxSASLChallenge)
    (full : (if arg ≠ lit "+" then h.challengeBuf ++ arg else h.challengeBuf) = text)
    (some : text ≠ []) (other : text ≠ lit "+") (decoded : decode text = .some bytes) :
    h.handleAuthenticate env (challengeLine arg) =
      { h with challengeBuf := [] }.respond env mech bytes := by
  have taken := fun refused : arg ≠ lit "+" ∧ maxSASLChallenge < _ =>
    fits.elim refused.1 (not_le.mpr refused.2)
  refine ends_challenge challenged
    (by rw [reassemble, if_neg taken, full, if_neg short, if_neg some]) ?_
  · rw [decodeChallenge, if_neg (not_or.mpr ⟨other, some⟩), decoded]
    rfl

/-- The last of a list of chunks is answered with a challenge, and those before it only fill the
buffer. -/
def Answers (env : Env) (mech : SaslMech) (bytes : Bytes) (h : Handshake) (chunks : List Bytes) :
    Prop :=
  ∃ before last, chunks = before ++ [last] ∧
    (∀ start arg rest, before = start ++ arg :: rest →
      (h.fed env start).handleAuthenticate env (challengeLine arg) =
        ({ h with challengeBuf := h.challengeBuf ++ (start ++ [arg]).flatten }, .quiet)) ∧
    (h.fed env before).handleAuthenticate env (challengeLine last) =
      { h with challengeBuf := [] }.respond env mech bytes

theorem Answers.single
    (answered : h.handleAuthenticate env (challengeLine arg) =
      { h with challengeBuf := [] }.respond env mech bytes) : Answers env mech bytes h [arg] :=
  ⟨[], arg, rfl, fun start _ _ split => absurd split (by simp), answered⟩

theorem Answers.cons {chunks : List Bytes}
    (taken : h.handleAuthenticate env (challengeLine arg) =
      ({ h with challengeBuf := h.challengeBuf ++ arg }, .quiet))
    (answers : Answers env mech bytes { h with challengeBuf := h.challengeBuf ++ arg } chunks) :
    Answers env mech bytes h (arg :: chunks) := by
  obtain ⟨before, last, rfl, quiet, answered⟩ := answers
  have fed_cons (rest : List Bytes) : h.fed env (arg :: rest) =
      { h with challengeBuf := h.challengeBuf ++ arg }.fed env rest := by
    rw [fed, foldl_cons, taken]
    rfl
  refine ⟨arg :: before, last, rfl, fun start chunk rest split => ?_, by rw [fed_cons, answered]⟩
  cases start with
  | nil =>
    obtain ⟨rfl, -⟩ := cons.inj split
    rw [nil_append, flatten_singleton]
    exact taken
  | cons first start =>
    obtain ⟨rfl, tail⟩ := cons.inj split
    rw [fed_cons, quiet start chunk rest tail, cons_append, flatten_cons, append_assoc]

theorem answers_chunkLoop (env : Env) {fuel : Nat} (challenged : h.Challenged mech)
    (enough : text.length ≤ fuel) (some : text ≠ []) (whole : text.length % 4 = 0)
    (fits : h.challengeBuf.length + text.length ≤ maxSASLChallenge)
    (decoded : decode (h.challengeBuf ++ text) = .some bytes) :
    Answers env mech bytes h (chunkLoop fuel text) := by
  induction fuel generalizing h text with
  | zero => exact absurd (eq_nil_of_length_eq_zero (Nat.le_zero.mp enough)) some
  | succ _ ih =>
    have long := length_pos_of_ne_nil some
    -- The groups of the encoding have four digits, so no chunk of it is a lone plus.
    have distinct : ∀ start : Bytes, start ++ text ≠ lit "+" := fun start same => by
      have lengths := congrArg length same
      rw [length_append] at lengths
      change _ = 1 at lengths
      omega
    have filled : h.challengeBuf ++ text ≠ [] := append_ne_nil_of_right_ne_nil _ some
    rw [chunkLoop]
    split
    · next more =>
      have size : (text.take 400).length = 400 := length_take_of_le more.le
      have rest : (text.drop 400).length = text.length - 400 := length_drop
      refine .cons (takes_chunk env challenged size (by omega)) (ih challenged (by omega)
        (ne_nil_of_length_pos (by omega)) (by omega) ?_ ?_)
      · rw [length_append]
        omega
      · rw [append_assoc, take_append_drop]
        exact decoded
    · split
      · next exactly =>
        refine .cons (takes_chunk env challenged exactly fits) (.single ?_)
        exact ends_chunks challenged (by decide) (.inl rfl) rfl filled (distinct _) decoded
      · next short =>
        exact .single (ends_chunks challenged short (.inr fits) (if_pos (distinct [])) filled
          (distinct _) decoded)

theorem length_challengeBuf_le (bounded : h.challengeBuf.length ≤ maxSASLChallenge)
    (m : IrcMessage) : (h.handleAuthenticate env m).1.challengeBuf.length ≤ maxSASLChallenge := by
  have reassembled : (h.reassemble (m.param 0)).1.challengeBuf.length ≤ maxSASLChallenge := by
    rw [reassemble]
    split
    · exact Nat.zero_le _
    · next fits =>
      dsimp only
      split
      · split
        · next other =>
          rw [length_append]
          exact not_lt.mp fun long => fits ⟨other, long⟩
        · exact bounded
      · exact Nat.zero_le _
  rw [handleAuthenticate]
  split
  · generalize h.reassemble (m.param 0) = outcome at reassembled ⊢
    rcases outcome with ⟨_, _ | _ | _⟩
    · exact reassembled
    · exact reassembled
    · dsimp only
      split
      · exact reassembled
      · rw [respond]
        split <;> exact reassembled
  · exact bounded

/-- The chunks of an encoding are put together again: all but the last only fill the buffer, and
with the last one the mechanism responds to what was encoded. Whatever is sent, the buffer stays
within its bound. -/
theorem authenticate_round_trip (env : Env) (h : Handshake) (empty : h.challengeBuf = []) :
    (∀ mech, h.Challenged mech → ∀ bytes, (encode bytes).length ≤ maxSASLChallenge →
      ∃ before last, chunkAuthenticate (encode bytes) = before ++ [last] ∧
        (∀ start arg rest, before = start ++ arg :: rest →
          (h.fed env start).handleAuthenticate env (challengeLine arg) =
            ({ h with challengeBuf := (start ++ [arg]).flatten }, .quiet)) ∧
        (h.fed env before).handleAuthenticate env (challengeLine last) =
          h.respond env mech bytes ∧
        (h.respond env mech bytes).1.mech = some (mech.respond env bytes).1) ∧
    ∀ args, (h.fed env args).challengeBuf.length ≤ maxSASLChallenge := by
  constructor
  · intro mech challenged bytes fits
    have decoded := decode_encode bytes
    have answers : Answers env mech bytes h (chunkAuthenticate (encode bytes)) := by
      rw [chunkAuthenticate]
      split
      · next none =>
        rw [none] at decoded
        obtain rfl : [] = bytes := Option.some.inj decoded
        have reassembled : h.reassemble (lit "+") =
            ({ h with challengeBuf := [] }, .ok (some (lit "+"))) := by
          rw [reassemble, empty]
          rfl
        exact .single (ends_challenge challenged reassembled rfl)
      · next some =>
        exact answers_chunkLoop env challenged le_rfl some (length_encode bytes)
          (by rw [empty]; simpa using fits) (by rw [empty]; exact decoded)
    have responds : (h.respond env mech bytes).1.mech = some (mech.respond env bytes).1 := by
      rw [respond]
      split <;> simp only [*]
    have same : { h with challengeBuf := [] } = h := by rw [← empty]
    rw [Answers, same, empty] at answers
    obtain ⟨before, last, split, quiet, answered⟩ := answers
    exact ⟨before, last, split, quiet, answered, responds⟩
  · intro args
    have bounded : h.challengeBuf.length ≤ maxSASLChallenge := by
      rw [empty]
      exact Nat.zero_le _
    clear empty
    induction args generalizing h with
    | nil => exact bounded
    | cons _ _ ih => exact ih _ (length_challengeBuf_le bounded _)

/-- The first message of the server in the published exchange of SCRAM-SHA-256 comes in one chunk,
to which the client responds. -/
theorem authenticate_round_trip_vector :
    let mech : SaslMech := .scram (.newSCRAM vectorSasl)
    let h := { newHandshake { tls := true, nick := lit "user" } with
      phase := .authChallenge, mech := some mech }
    ∃ before last, chunkAuthenticate (encode vectorServerFirst) = before ++ [last] ∧
      (h.fed vectorEnv before).handleAuthenticate vectorEnv (challengeLine last) =
        h.respond vectorEnv mech vectorServerFirst := by
  intro mech h
  obtain ⟨before, last, split, -, answered, -⟩ :=
    (authenticate_round_trip vectorEnv h rfl).1 mech ⟨rfl, rfl⟩ vectorServerFirst
      (by decide +kernel)
  exact ⟨before, last, split, answered⟩

end Ircthing.Irc.Handshake
