import PostfixRatelimitd.Plan

/-!
# The daemon's configuration

What a loaded config holds, and which rule's plan a sender falls under. A regex is the
predicate it matches; the types of the redis client are spelled out as far as the
daemon compares them.
-/
namespace PostfixRatelimitd

/-- Where the redis client connects to. -/
inductive ConnectionAddr
  | tcp (host : String) (port : ℕ)
  | tcpTls (host : String) (port : ℕ) (insecure : Bool)
  | unix (path : String)
  deriving DecidableEq, Repr

inductive ProtocolVersion
  | resp2
  | resp3
  deriving DecidableEq, Repr

structure ConnectionInfo where
  addr : ConnectionAddr
  db : ℤ
  username : Option String
  password : Option String
  protocol : ProtocolVersion
  libName : Option String
  libVer : Option String
  deriving DecidableEq, Repr

/-- What to answer when a check cannot be completed. -/
inductive FailureAction
  | defer
  | permit
  deriving DecidableEq, Repr

/-- How a rule selects the senders it applies to. -/
inductive SaslMatcher
  | username (username : String)
  | regex (isMatch : String → Bool)

structure SaslLimitRule where
  matcher : SaslMatcher
  plan : CheckPlan

def SaslLimitRule.matches (rule : SaslLimitRule) (saslUsername : String) : Bool :=
  match rule.matcher with
  | .username username => username == saslUsername
  | .regex isMatch => isMatch saslUsername

structure Config where
  redisConnectionInfo : ConnectionInfo
  redisKeyPrefix : String
  onRedisError : FailureAction
  warnOnUnauthenticated : Bool
  socket : String
  controlSocket : Option String
  saslLimits : List SaslLimitRule
  defaultPlan : CheckPlan

/-- The plan of the first rule that matches, or the default plan. -/
def Config.planFor (config : Config) (saslUsername : String) : CheckPlan :=
  match config.saslLimits.find? (fun rule => rule.matches saslUsername) with
  | some rule => rule.plan
  | none => config.defaultPlan

end PostfixRatelimitd
