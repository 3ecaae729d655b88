import CogWsl.Atom
import CogWsl.AtomSpace
import CogWsl.Coherence
import CogWsl.Agent
import CogWsl.Memories
import CogWsl.AgentThread
import CogWsl.System
import CogWsl.Stages
import CogWsl.Integration
import CogWsl.Footprint
import CogWsl.ProcessKeys
import CogWsl.Attention
import CogWsl.AttentionPass
import CogWsl.AttentionGrowth
import CogWsl.Patterns
import CogWsl.Counters
import CogWsl.Races
import CogWsl.Runs
import CogWsl.Links
import CogWsl.Registry
import CogWsl.SystemLoops
import CogWsl.ProcessLifecycle
import CogWsl.Monitor
import CogWsl.ManagerView
import CogWsl.Interleavings
