import MessagePipe.Error

/-!
# Settings of pipes

`Config` holds what all pairs made from it share, `Options` belong to one endpoint (`PipeOptions`);
§10.4 of the specification. Watermarks are 64-bit numbers here, as they are where a program sets
them: `lowWatermark` computes with them as words, and only `Pipe.ofPlans` takes them over as
numbers.

* `Config.validate` refuses a distance of zero between the watermarks and nothing else; `Pipe.pair`
  asks it before anything is made.
* `Options.hwm` bounds the messages in flight *towards* the endpoint that has the option, so the
  peer is the one that obeys it; zero stands for no bound.
* `Options.delay` says whether messages that were already sent are read before a request of the peer
  to terminate is honoured. `Turn.terminate` overrides it.

The `with…` functions set one field each and touch no other; `describe` is how settings show as
text.
-/

namespace MessagePipe

/-- The greatest distance of the watermarks, where nothing else is set. -/
def defaultMaxDelta : UInt64 := 1024

/-- The high watermark of a direction, where nothing else is set. -/
def defaultHwm : UInt64 := 1000

/-! ## Shared settings -/

/-- Settings shared by every pair made from them. -/
structure Config where
  /-- The greatest distance of a large high watermark to its low watermark. -/
  maxDelta : UInt64 := defaultMaxDelta
  /-- The high watermark of endpoints that set none. -/
  hwm : UInt64 := defaultHwm
deriving DecidableEq, Repr, Inhabited

namespace Config

/-- The settings with another greatest distance of the watermarks. -/
def withMaxDelta (c : Config) (maxDelta : UInt64) : Config := { c with maxDelta }

/-- The settings with another high watermark for endpoints that set none. -/
def withHwm (c : Config) (hwm : UInt64) : Config := { c with hwm }

/-- May pairs be made with these settings? -/
def isValid (c : Config) : Bool :=
  c.maxDelta != 0

/-- Refuses settings no pair may be made with. -/
def validate (c : Config) : Except Error Unit :=
  if c.isValid then .ok () else .error .invalidConfig

/-- The settings as text. -/
def describe (c : Config) : String :=
  "Config \x7b max_wm_delta: " ++ toString c.maxDelta ++ ", default_hwm: " ++ toString c.hwm
    ++ " \x7d"

end Config

/-! ## Settings of one endpoint -/

/-- Settings of one endpoint. -/
structure Options where
  /-- How many messages may be in flight towards this endpoint; 0 for any number. -/
  hwm : UInt64 := defaultHwm
  /-- Are messages already sent read before a peer's termination is honoured? -/
  delay : Bool := true
deriving DecidableEq, Repr, Inhabited

namespace Options

/-- The options of an endpoint that follows the shared settings. -/
def ofConfig (c : Config) : Options := { hwm := c.hwm }

/-- The options with another high watermark. -/
def withHwm (o : Options) (hwm : UInt64) : Options := { o with hwm }

/-- The options with another choice on a peer's termination. -/
def withDelay (o : Options) (delay : Bool) : Options := { o with delay }

/-- The options as text. -/
def describe (o : Options) : String :=
  "PipeOptions \x7b hwm: " ++ toString o.hwm ++ ", delay: " ++ toString o.delay ++ " \x7d"

end Options

end MessagePipe
