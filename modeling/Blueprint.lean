import Blueprint.Declared.Node
import Blueprint.Json.Reader
import Blueprint.Main
import Blueprint.Proofs.Declared.Located
import Blueprint.Proofs.Grammar.Nesting
import Blueprint.Proofs.Integrity
import Blueprint.Resolved.Restore
import Blueprint.Proofs.Grammar.Step
import Blueprint.Proofs.Grammar.Run
import Blueprint.Proofs.Grammar.Line
import Blueprint.Proofs.Grammar.Block
import Blueprint.Proofs.Grammar.Property
import Blueprint.Proofs.Grammar.Body
import Blueprint.Proofs.Grammar.View
import Blueprint.Proofs.Grammar.Presentation
import Blueprint.Proofs.Grammar.Documentation
import Blueprint.Proofs.Grammar.Workspace
import Blueprint.Proofs.Token.Segment
import Blueprint.Proofs.Token.Stream
import Blueprint.Proofs.Grammar.Loop
import Blueprint.Proofs.Braces
import Blueprint.Proofs.Totality
import Blueprint.Proofs.Build.Placed
import Blueprint.Proofs.Build.Joined
import Blueprint.Proofs.Build.Shown
import Blueprint.Proofs.Completeness
import Blueprint.Proofs.Token.Slice
import Blueprint.Proofs.Token.Lossless
import Blueprint.Proofs.Token.Seam
import Blueprint.Proofs.Declared.Unplaced
import Blueprint.Proofs.Relaid.Line
import Blueprint.Proofs.Token.Lines
import Blueprint.Proofs.Relaid.Run
import Blueprint.Proofs.Relaid.Block
import Blueprint.Proofs.Relaid.Body
import Blueprint.Proofs.Relaid.View
import Blueprint.Proofs.Relaid.Presentation
import Blueprint.Proofs.Relaid.Workspace
import Blueprint.Proofs.Token.Layout
import Blueprint.Proofs.Relaid.Source
import Blueprint.Proofs.Token.Fresh
import Blueprint.Proofs.Limit.Run
import Blueprint.Proofs.Built.Run
import Blueprint.Proofs.Built.Statement
import Blueprint.Proofs.Limit.Source
import Blueprint.Proofs.Places.Node
import Blueprint.Proofs.Places.Run
import Blueprint.Proofs.Places.Body
import Blueprint.Proofs.Places.Statement
import Blueprint.Proofs.Places.Build
import Blueprint.Proofs.Places.Compilation
import Blueprint.Proofs.Grammar.Yields
import Blueprint.Proofs.Printed.Row
import Blueprint.Proofs.Printed.Model
import Blueprint.Proofs.Printed.Statement
import Blueprint.Proofs.Printed.Body
import Blueprint.Proofs.Printed.Source
import Blueprint.Proofs.Echo.Block
import Blueprint.Proofs.Echo.Body
import Blueprint.Proofs.Echo.Statement
import Blueprint.Proofs.Registry.Failure
import Blueprint.Proofs.Registry.Named
import Blueprint.Proofs.Resolved.Ancestors
import Blueprint.Proofs.Build.Implied
import Blueprint.Proofs.Tier.Hierarchy
import Blueprint.Proofs.Recovery.Inserted
import Blueprint.Proofs.Resolved.Restored
import Blueprint.Proofs.Stacked.Source
import Blueprint.Proofs.Qualified.Source
import Blueprint.Proofs.Registry.Alias
import Blueprint.Proofs.Registry.Path
import Blueprint.Proofs.Build.Identified
import Blueprint.Proofs.Build.Keyed
import Blueprint.Proofs.Build.Settled
import Blueprint.Proofs.Token.Respaced
import Blueprint.Proofs.Untouched.Body
import Blueprint.Proofs.Token.Spelled
import Blueprint.Proofs.Resolved.WayUp
import Blueprint.Proofs.Token.Ordered
import Blueprint.Proofs.Source.Excerpt
import Blueprint.Proofs.Grammar.Values
import Blueprint.Proofs.Text.Decoded
import Blueprint.Proofs.Settings.Reader
import Blueprint.Proofs.Command.Settings
