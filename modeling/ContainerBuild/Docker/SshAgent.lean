import ContainerBuild.Environment

/-!
# SSH agents

Builds are given the SSH agent of the session, which the environment names by
the socket that it listens on, unless they are given another one.
-/

namespace ContainerBuild.SshAgent

/-- The variable that names the socket of the session's agent. -/
def socketVariable : String := "SSH_AUTH_SOCK"

/-- The socket of the session's agent; an empty name is none. -/
def session (e : Environment) : Option String :=
  (e.get? socketVariable).filter fun socket => !socket.isEmpty

/-- The socket of the agent that builds are given: the chosen one, or else that
    of the session. -/
def socket? (chosen : Option String) (e : Environment) : Option String :=
  chosen.or (session e)

end ContainerBuild.SshAgent
