import HollowNode.Api.Definition

def main : IO Unit := IO.print HollowNode.Api.Definition.document.write
