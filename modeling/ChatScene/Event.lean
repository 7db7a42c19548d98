/-
  Events: what happens in a session, told to whoever has subscribed.
-/
import ChatScene.Json.Value

namespace ChatScene

/-- What an event is about. -/
inductive Topic where
  | chatStarted
  | beatStarted
  | choiceShown
  | variableSet
  | labelJumped
  | chatEnded
deriving DecidableEq, Repr

namespace Topic

/-- All topics. -/
def all : List Topic := [chatStarted, beatStarted, choiceShown, variableSet, labelJumped, chatEnded]

/-- The name of a topic. -/
def name : Topic → String
  | chatStarted => "CHAT_STARTED"
  | beatStarted => "BEAT_STARTED"
  | choiceShown => "CHOICE_SHOWN"
  | variableSet => "VARIABLE_SET"
  | labelJumped => "LABEL_JUMPED"
  | chatEnded => "CHAT_ENDED"

/-- The topic with a given name. -/
def ofName? (name : String) : Option Topic := all.find? (·.name = name)

end Topic

/-- An event: its topic and what it carries. -/
structure Event (ε : Type) where
  /-- What it is about. -/
  topic : Topic
  /-- What it carries. -/
  data : ε

/-- The named values that an event may carry. -/
abbrev Values := List (Text.Wide × Json)

/-- One of the named values of an event. -/
def Event.get? (e : Event Values) (key : Text.Wide) : Option Json := Json.lookup key e.data

end ChatScene
