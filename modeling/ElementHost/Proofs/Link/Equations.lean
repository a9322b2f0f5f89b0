import ElementHost.Link.Command

/-!
# What the operations of a link amount to

Each operation of a link, run on a link that is given, in a monad of any kind.  A write asks for
the token and gives it back, so that nothing but the bus and the receiver of reports notices it;
a read leaves the token free on every path.

* `Outcome.ofResult`, the outcome that stands for a result, and `report_eq`, that it is the one that
  is reported;
* `send`, `receive`, what a transfer does to everything but the link;
* `run_write`, `run_read`, the two transfers in these terms.
-/

namespace ElementHost.Link

variable {m : Type → Type} [Monad m] [LawfulMonad m]

/-- The outcome that stands for the result of a transfer. -/
def Outcome.ofResult : Except Error Unit → Outcome
  | .ok () => .success
  | .error e => e.outcome

omit [LawfulMonad m] in
/-- What is reported of a result is the outcome that stands for it. -/
theorem report_eq (wiring : Wiring m) (result : Except Fault Unit) :
    report wiring result = do
      wiring.notify (.ofResult (result.mapError .bus))
      return result.mapError .bus := by
  cases result <;> rfl

/-- The link with its token free. -/
def freed (link : Link) : Link := { link with token := link.token.release }

@[simp] theorem freed_held (link : Link) : link.freed.token.held = false := rfl

/-- The transfer of a write, once it has the token or has been denied it. -/
def send (wiring : Wiring m) (data : Bytes) (link : Link) : m (Except Error Unit) :=
  if link.token.held then deny wiring
  else writeFrom wiring link.config data 1 >>= report wiring

/-- The transfer of a read, once it has the token or has been denied it. -/
def receive (wiring : Wiring m) (buffer : Bytes) (link : Link) :
    m (Except Error Unit × Bytes) := do
  if link.token.held then
    return (← deny wiring, buffer)
  else
    let (result, buffer) ← link.config.peer.read wiring.bus buffer
    return (← report wiring result, buffer)

omit [LawfulMonad m] in
theorem run_acquire (link : Link) :
    (acquire : StateT Link m Grant).run link =
      pure (link.token.acquire.1, { link with token := link.token.acquire.2 }) := rfl

/-- A write leaves the link as it finds it. -/
theorem run_write (wiring : Wiring m) (data : Bytes) (link : Link) :
    (write wiring data).run link = (fun result => (result, link)) <$> send wiring data link := by
  obtain ⟨config, ⟨held⟩, requested⟩ := link
  cases held <;> simp [write, send, run_acquire, Token.acquire, release, Token.release]

/-- A read leaves the link with a free token. -/
theorem run_read (wiring : Wiring m) (buffer : Bytes) (link : Link) :
    (read wiring buffer).run link =
      (fun filled => (filled, link.freed)) <$> receive wiring buffer link := by
  obtain ⟨config, ⟨held⟩, requested⟩ := link
  cases held <;> simp [read, receive, run_acquire, Token.acquire, release, freed, Token.release]

end ElementHost.Link
