import LikelyInvariants.Platform.Character.Printable
import LikelyInvariants.Platform.Pattern.Reader
import LikelyInvariants.Platform.Shell.Run
import LikelyInvariants.Platform.SystemFile
import LikelyInvariants.Platform.Toml.Reader

/-!
# The platform

What the engine runs on and is no part of it: tables of characters, patterns, the language of
configuration files, the files of a system, and shells with their tools. It is here so that whole
runs can be computed, from the text of a configuration to the answers of a prover that is a program.

The engine takes little from it. A text between quotes depends on which characters can be printed;
a configuration is read, its pattern then being a predicate on names; and a prover that is a program
is one way among others to answer queries. What is proved of the engine holds whichever characters
can be printed, and is about nothing else that is here.
-/
