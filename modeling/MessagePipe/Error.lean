/-!
# Errors of setup and delivery

The three kinds of `ErrorKind` (§10.3 of the specification), with their texts. Flow control never
shows up as an error (§7): a full or drained pipe answers with a Boolean, an absent frame, or the
frame handed back. So only three things can be refused:

* to send a command through a mailbox whose owner has dropped the receiving side (`Mailbox.send`);
  the pipe that sends it logs a warning and goes on (`Surroundings.post`);
* to make an identity of more bytes than fit (`Identity.ofBytes`);
* to make a pair with settings that put the low watermark on top of the high one (`Config.validate`,
  which `Pipe.pair` asks first).

`Error.message` is what a reader of an error sees, `Error.describe` the error with its kind as a
field. The wrapper around the kind has no content of its own, so it is left out: an error is its
kind. A breach of the terms of use is no error but a `Fault`, and a request that addresses something
that is gone is answered with what is `Missing`.
-/

namespace MessagePipe

/-- Why a setup or a delivery was refused. -/
inductive Error where
  /-- The owner of the mailbox dropped its receiving side. -/
  | mailboxClosed
  /-- The identity has more bytes than an identity may have. -/
  | identityTooLong
  /-- The configuration would put the low watermark on top of the high one. -/
  | invalidConfig
deriving DecidableEq, Repr, Inhabited

namespace Error

/-- The kind of the error, as one word. -/
def name : Error → String
  | mailboxClosed => "MailboxClosed"
  | identityTooLong => "IdentityTooLong"
  | invalidConfig => "InvalidConfig"

/-- The error for a reader. -/
def message : Error → String
  | mailboxClosed => "Owner mailbox closed"
  | identityTooLong => "Identity exceeds maximum size"
  | invalidConfig => "Invalid pipe configuration"

/-- The error with its kind spelled out as a field. -/
def describe (e : Error) : String :=
  "Error \x7b kind: " ++ e.name ++ " \x7d"

/-- The error of the given kind, if there is one. -/
def ofName? (name : String) : Option Error :=
  [mailboxClosed, identityTooLong, invalidConfig].find? fun e => e.name == name

end Error

end MessagePipe
